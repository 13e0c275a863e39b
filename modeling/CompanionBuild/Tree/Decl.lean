import CompanionBuild.Tree.TypeExpr

/-! # Declarations and statements -/

namespace CompanionBuild

inductive VarKind where
  | var
  | letBinding
  | const
deriving DecidableEq, Repr

def VarKind.text : VarKind → String
  | .var => "var"
  | .letBinding => "let"
  | .const => "const"

/-- A declaration of one variable. -/
structure VarDecl where
  kind : VarKind := .const
  name : String
  type : Option TypeExpr := none
  init : Option Expr := none
  isDeclare : Bool := false

inductive Stmt where
  | expr (value : Expr)
  | result (value : Option Expr)
  | variable (decl : VarDecl)

abbrev Block := List (Located Stmt)

/-- The modifier of a parameter that is also a property. -/
inductive Access where
  | everyone
  | owner
  | heirs
deriving DecidableEq, Repr

def Access.text : Access → String
  | .everyone => "public"
  | .owner => "private"
  | .heirs => "protected"

structure Param where
  name : String
  /-- The place of the name. -/
  span : Span := .synthetic
  type : Option TypeExpr := none
  optional : Bool := false
  access : Option Access := none
  isReadonly : Bool := false
  decorators : List Expr := []

structure FunctionDecl where
  name : String
  params : List Param
  result : Option TypeExpr
  body : Option Block
  isDeclare : Bool

/-- A constructor; one without a body is an overload signature or ambient. -/
structure Constructor where
  params : List Param
  body : Option Block

structure Method where
  name : PropertyName
  params : List Param
  result : Option TypeExpr
  body : Option Block
  isStatic : Bool
  decorators : List Expr

structure Field where
  name : PropertyName
  type : Option TypeExpr := none
  init : Option Expr := none
  isStatic : Bool := false
  decorators : List Expr := []
  /-- The block comment right before the field. -/
  comment : Option String := none

structure Accessor where
  /-- A setter rather than a getter. -/
  isSetter : Bool
  name : PropertyName
  params : List Param
  type : Option TypeExpr
  body : Option Block
  isStatic : Bool
  decorators : List Expr

inductive Member where
  | constructor (value : Constructor)
  | method (value : Method)
  | field (value : Field)
  | accessor (value : Accessor)

namespace Member

/-- The name of a member; a constructor has none. -/
def name? : Member → Option PropertyName
  | .constructor _ => none
  | .method m => some m.name
  | .field f => some f.name
  | .accessor a => some a.name

def decorators : Member → List Expr
  | .constructor _ => []
  | .method m => m.decorators
  | .field f => f.decorators
  | .accessor a => a.decorators

/-- The member with other decorators; a constructor takes none. -/
def withDecorators (decorators : List Expr) : Member → Member
  | .constructor c => .constructor c
  | .method m => .method { m with decorators }
  | .field f => .field { f with decorators }
  | .accessor a => .accessor { a with decorators }

def isStatic : Member → Bool
  | .constructor _ => false
  | .method m => m.isStatic
  | .field f => f.isStatic
  | .accessor a => a.isStatic

end Member

structure ClassDecl where
  name : String
  base : Option Expr := none
  members : List (Located Member) := []
  decorators : List Expr := []
  isDeclare : Bool := false

/-- The first static field with a given identifier for its name. -/
def ClassDecl.staticField? (decl : ClassDecl) (name : String) : Option Field :=
  decl.members.findSome? fun member =>
    match member.value with
    | .field f => if f.isStatic && f.name.ident? == some name then some f else none
    | _ => none

structure InterfaceDecl where
  name : String
  members : List TypeMember
  isDeclare : Bool

structure TypeAliasDecl where
  name : String
  type : TypeExpr
  isDeclare : Bool

structure EnumMember where
  name : String
  init : Option Expr

structure EnumDecl where
  name : String
  members : List EnumMember
  isConst : Bool
  isDeclare : Bool

inductive Decl where
  | function (value : FunctionDecl)
  | classDecl (value : ClassDecl)
  | interface (value : InterfaceDecl)
  | typeAlias (value : TypeAliasDecl)
  | enum (value : EnumDecl)
  | variable (value : VarDecl)

def Decl.name : Decl → String
  | .function d => d.name
  | .classDecl d => d.name
  | .interface d => d.name
  | .typeAlias d => d.name
  | .enum d => d.name
  | .variable d => d.name

end CompanionBuild
