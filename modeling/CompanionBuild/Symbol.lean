import CompanionBuild.Tree.Unit

/-! # What names stand for

A decorator belongs to the framework when it is imported from the framework's core module. A name in a type has a value
at run time when it stands for a declaration that exists there; what it stands for is asked of a resolver, and the local
resolver answers from the imports and declarations of the unit alone.
-/

namespace CompanionBuild

/-- The module that declares the framework's decorators. -/
def coreModule : String := "@annex/core"

/-- An export of a module. -/
structure ImportedName where
  name : String
  source : String
deriving DecidableEq, Repr

namespace SourceUnit

/-- The first answer to a question about the import specifiers of a unit, in order. -/
def findImport? {α : Type} (u : SourceUnit) (ask : ImportDecl → ImportSpecifier → Option α) : Option α :=
  u.imports.findSome? fun decl => decl.specifiers.findSome? (ask decl)

/-- The named import that binds a name. -/
def importOf? (u : SourceUnit) (name : String) : Option ImportedName :=
  u.findImport? fun decl specifier =>
    match specifier with
    | .named imported _ _ => if specifier.localName = name then some ⟨imported, decl.source⟩ else none
    | _ => none

/-- The module of the namespace import that binds a name. -/
def namespaceOf? (u : SourceUnit) (name : String) : Option String :=
  u.findImport? fun decl specifier =>
    match specifier with
    | .whole bound => if bound = name then some decl.source else none
    | _ => none

/-- The import behind an identifier, or behind a member of a namespace. -/
def importOfTarget? (u : SourceUnit) : Expr → Option ImportedName
  | .ident _ name => u.importOf? name
  | .member _ (.ident _ space) property => (u.namespaceOf? space).map fun source => ⟨property, source⟩
  | _ => none

/-- The import behind a decorator, whether it is called or not. -/
def importOfDecorator? (u : SourceUnit) : Expr → Option ImportedName
  | .call _ callee _ => u.importOfTarget? callee
  | target => u.importOfTarget? target

end SourceUnit

structure SymbolFlags where
  /-- The symbol means a value. -/
  value : Bool := false
  /-- The value is a constant enumeration, which does not exist at run time. -/
  constEnum : Bool := false
deriving DecidableEq, Repr

inductive SymbolDeclaration where
  /-- A name bound by an import. -/
  | imported (name source : String)
  | here
deriving DecidableEq, Repr

structure SymbolInfo where
  flags : SymbolFlags
  /-- The flags of what an imported symbol stands for. -/
  aliased : Option SymbolFlags
  declarations : List SymbolDeclaration
deriving DecidableEq, Repr

/-- An expression that names the symbol has a value at run time. -/
def SymbolInfo.isRuntimeValue (symbol : SymbolInfo) : Bool :=
  let flags := symbol.aliased.getD symbol.flags
  flags.value && !flags.constEnum && !symbol.declarations.isEmpty

/-- What a dotted name stands for in a unit. -/
abbrev SymbolResolver := SourceUnit → EntityName → Option SymbolInfo

/-- A type-only import binds no value. -/
def ImportSpecifier.isTypeOnly : ImportSpecifier → Bool
  | .named _ _ typeOnly => typeOnly
  | _ => false

def Decl.flags : Decl → SymbolFlags
  | .classDecl _ | .function _ | .variable _ => ⟨true, false⟩
  | .enum d => ⟨true, d.isConst⟩
  | .interface _ | .typeAlias _ => ⟨false, false⟩

namespace SourceUnit

/-- The symbol of a name bound by an import. -/
def importedSymbol? (u : SourceUnit) (name : String) : Option SymbolInfo :=
  u.findImport? fun decl specifier =>
    if specifier.localName = name then
      some {
        flags := {}
        aliased := some ⟨!(decl.typeOnly || specifier.isTypeOnly), false⟩
        declarations := [.imported name decl.source] }
    else none

/-- The declarations of a unit, exported or not. -/
def decls (u : SourceUnit) : List Decl :=
  u.items.filterMap (·.value.decl?)

/-- The symbol of the first declaration of a name. -/
def declaredSymbol? (u : SourceUnit) (name : String) : Option SymbolInfo :=
  (u.decls.find? (·.name = name)).map fun d => ⟨d.flags, none, [.here]⟩

/-- What a dotted name stands for as far as the unit itself tells: an import, else the first declaration. A member is
reachable where what precedes it has a value. -/
def localSymbol? (u : SourceUnit) : EntityName → Option SymbolInfo
  | .ident name => (u.importedSymbol? name).or (u.declaredSymbol? name)
  | .qualified left _ =>
    (u.localSymbol? left).bind fun container =>
      if container.isRuntimeValue then some ⟨⟨true, false⟩, none, [.here]⟩ else none

end SourceUnit

/-- The resolver that looks at nothing but the unit. -/
def SymbolResolver.localOnly : SymbolResolver :=
  SourceUnit.localSymbol?

end CompanionBuild
