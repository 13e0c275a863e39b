import CompanionBuild.Names
import CompanionBuild.Tree.Unit

/-! # The expressions of a unit

Every expression of a list of items, a parent before its parts and everything in the order in which it is written.
Types are not visited.
-/

namespace CompanionBuild

mutual

/-- An expression and all expressions in it. -/
def Expr.walk : Expr → List Expr
  | e@(.literal ..) | e@(.ident ..) | e@(.external ..) => [e]
  | e@(.call _ callee args) | e@(.new _ callee args) => e :: (callee.walk ++ Expr.walkAll args)
  | e@(.member _ object _) => e :: object.walk
  | e@(.array _ elements) => e :: Expr.walkAll elements
  | e@(.object _ properties) => e :: Property.walkAll properties
  | e@(.arrow _ _ body) => e :: body.walk
  | e@(.paren _ inner) | e@(.spread _ inner) => e :: inner.walk

def Expr.walkAll : List Expr → List Expr
  | [] => []
  | e :: rest => e.walk ++ Expr.walkAll rest

def Property.walk : Property → List Expr
  | .keyValue key value => key.walk ++ value.walk
  | .shorthand _ => []
  | .spread value => value.walk

def Property.walkAll : List Property → List Expr
  | [] => []
  | p :: rest => p.walk ++ Property.walkAll rest

def PropertyName.walk : PropertyName → List Expr
  | .computed key => key.walk
  | .ident _ | .string _ | .number _ => []

end

def Expr.walkOption : Option Expr → List Expr
  | some e => e.walk
  | none => []

def VarDecl.walk (decl : VarDecl) : List Expr :=
  Expr.walkOption decl.init

def Stmt.walk : Stmt → List Expr
  | .expr value => value.walk
  | .result value => Expr.walkOption value
  | .variable decl => decl.walk

def Block.walk (body : Block) : List Expr :=
  body.flatMap (·.value.walk)

def Param.walkAll (params : List Param) : List Expr :=
  params.flatMap fun param => Expr.walkAll param.decorators

/-- The expressions of parameters and of a body, if there is one. -/
def walkCallable (params : List Param) (body : Option Block) : List Expr :=
  Param.walkAll params ++ Block.walk (body.getD [])

def Member.walk (member : Member) : List Expr :=
  let key := match member.name? with
    | some name => name.walk
    | none => []
  let rest := match member with
    | .constructor c => walkCallable c.params c.body
    | .method m => walkCallable m.params m.body
    | .field f => Expr.walkOption f.init
    | .accessor a => walkCallable a.params a.body
  Expr.walkAll member.decorators ++ key ++ rest

def ClassDecl.walk (decl : ClassDecl) : List Expr :=
  Expr.walkAll decl.decorators ++ Expr.walkOption decl.base ++ decl.members.flatMap (·.value.walk)

def Decl.walk : Decl → List Expr
  | .function d => walkCallable d.params d.body
  | .classDecl d => d.walk
  | .variable d => d.walk
  | .enum d => d.members.flatMap fun member => Expr.walkOption member.init
  | .interface _ | .typeAlias _ => []

def Item.walk : Item → List Expr
  | .decl d | .exportDecl d => d.walk
  | .stmt s => s.walk
  | .imports _ | .exportNamed .. | .exportAll _ => []

namespace Items

def walk (items : Items) : List Expr :=
  items.flatMap (·.value.walk)

/-- The modules of the external references, in the order of their first use. -/
def externalsInOrder (items : Items) : List String :=
  (walk items).foldl
    (fun seen e =>
      match e with
      | .external _ source _ => if seen.contains source then seen else seen ++ [source]
      | _ => seen)
    []

/-- The modules of the external references. -/
def externals (items : Items) : Names :=
  Names.ofList (externalsInOrder items)

end Items

end CompanionBuild
