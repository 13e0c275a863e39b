import CompanionBuild.Text.Affix
import CompanionBuild.Tree.Decl

/-! # Source units

A unit is a file as the compiler sees it: its text, its items and the files it refers to. While companions are attached
to a unit, the references it was written with are kept beside the longer list.
-/

namespace CompanionBuild

inductive ImportSpecifier where
  | default (name : String)
  | whole (name : String)
  | named (imported : String) (renamed : Option String) (typeOnly : Bool)
deriving DecidableEq

/-- The name a specifier binds in the importing unit. -/
def ImportSpecifier.localName : ImportSpecifier → String
  | .default name | .whole name => name
  | .named imported renamed _ => renamed.getD imported

structure ImportDecl where
  specifiers : List ImportSpecifier
  source : String
  typeOnly : Bool := false
deriving DecidableEq

structure ExportSpecifier where
  name : String
  exported : Option String := none
deriving DecidableEq

inductive Item where
  | imports (decl : ImportDecl)
  | exportNamed (specifiers : List ExportSpecifier) (source : Option String)
  | exportAll (source : String)
  | exportDecl (decl : Decl)
  | decl (decl : Decl)
  | stmt (stmt : Stmt)

namespace Item

/-- The declaration of an item, exported or not. -/
def decl? : Item → Option Decl
  | .decl d | .exportDecl d => some d
  | _ => none

/-- The class of an item, exported or not. -/
def class? (item : Item) : Option ClassDecl :=
  match item.decl? with
  | some (.classDecl c) => some c
  | _ => none

/-- The item with another class in the place of its class. -/
def withClass (c : ClassDecl) : Item → Item
  | .decl (.classDecl _) => .decl (.classDecl c)
  | .exportDecl (.classDecl _) => .exportDecl (.classDecl c)
  | item => item

def import? : Item → Option ImportDecl
  | .imports d => some d
  | _ => none

/-- The module an item imports from or re-exports. -/
def source? : Item → Option String
  | .imports d => some d.source
  | .exportAll source => some source
  | .exportNamed _ source => source
  | _ => none

end Item

abbrev Items := List (Located Item)

structure SourceUnit where
  name : String
  text : String
  items : Items := []
  /-- The files referred to, with those attached for the compiler. -/
  references : List String := []
  /-- The references as written, kept while others are attached. -/
  writtenReferences : Option (List String) := none
  isDeclaration : Bool := Text.endsWith name ".d.ts"
  /-- An explicit module name. -/
  moduleName : Option String := none
  /-- A block comment before the first item. -/
  header : Option String := none
  /-- The unit as read, when the compiler hands out another one in its place. -/
  asRead : Option SourceUnit := none

namespace SourceUnit

/-- A unit with nothing but a name and a text. -/
def plain (name text : String) : SourceUnit :=
  { name, text }

instance : Inhabited SourceUnit := ⟨plain "" ""⟩

/-- The references written in the file itself. -/
def ownReferences (u : SourceUnit) : List String :=
  u.writtenReferences.getD u.references

def imports (u : SourceUnit) : List ImportDecl :=
  u.items.filterMap (·.value.import?)

def classes (u : SourceUnit) : List ClassDecl :=
  u.items.filterMap (·.value.class?)

/-- The modules a unit depends on through imports and re-exports. -/
def sources (u : SourceUnit) : List String :=
  u.items.filterMap (·.value.source?)

end SourceUnit

end CompanionBuild
