import CompanionBuild.Text.Quoted
import CompanionBuild.Tree.Printed
import CompanionBuild.Tree.Walk

/-! # Printing units

Every node is a list of strokes. External references are written as `iN.name`, one namespace import for each module
standing at the top in the order of first use.
-/

namespace CompanionBuild

/-- The lists with `separator` between each two neighbours. -/
def Stroke.separated (separator : String) : List (List Stroke) → List Stroke
  | [] => []
  | [strokes] => strokes
  | strokes :: rest => strokes ++ .write separator :: Stroke.separated separator rest

def Literal.text : Literal → String
  | .number value => value.numeral
  | .string text => Text.quote text
  | .template text => Text.template text
  | .boolean value => if value then "true" else "false"
  | .null => "null"

mutual

/-- The strokes of an expression, `handle` naming the import of each module. -/
def Expr.strokes (handle : String → String) : Expr → List Stroke
  | .literal span value => [.mark span, .write value.text]
  | .ident span name => [.mark span, .write name]
  | .call span callee args =>
    .mark span :: callee.strokes handle ++ .write "(" :: Expr.strokesList handle args ++ [.write ")"]
  | .new span callee args =>
    .mark span :: .write "new " :: callee.strokes handle ++ .write "(" :: Expr.strokesList handle args ++ [.write ")"]
  | .member span object property => .mark span :: object.strokes handle ++ [.write ("." ++ property)]
  | .array span elements => .mark span :: .write "[" :: Expr.strokesList handle elements ++ [.write "]"]
  | .object span properties =>
    if properties.isEmpty then [.mark span, .write "\x7b\x7d"]
    else .mark span :: .write "\x7b " :: Property.strokesList handle properties ++ [.write " \x7d"]
  | .arrow span params body =>
    let inner := body.strokes handle
    .mark span :: .write ("(" ++ Text.joined ", " params ++ ") => ") ::
      if body.isObject then .write "(" :: inner ++ [.write ")"] else inner
  | .paren span inner => .mark span :: .write "(" :: inner.strokes handle ++ [.write ")"]
  | .spread span inner => .mark span :: .write "..." :: inner.strokes handle
  | .external span source name => [.mark span, .write (handle source ++ "." ++ name)]

def Expr.strokesList (handle : String → String) : List Expr → List Stroke
  | [] => []
  | [e] => e.strokes handle
  | e :: rest => e.strokes handle ++ .write ", " :: Expr.strokesList handle rest

def Property.strokes (handle : String → String) : Property → List Stroke
  | .keyValue key value => key.strokes handle ++ .write ": " :: value.strokes handle
  | .shorthand name => [.write name]
  | .spread value => .write "..." :: value.strokes handle

def Property.strokesList (handle : String → String) : List Property → List Stroke
  | [] => []
  | [p] => p.strokes handle
  | p :: rest => p.strokes handle ++ .write ", " :: Property.strokesList handle rest

def PropertyName.strokes (handle : String → String) : PropertyName → List Stroke
  | .ident name => [.write name]
  | .string text => [.write (Text.quote text)]
  | .number value => [.write value.numeral]
  | .computed key => .write "[" :: key.strokes handle ++ [.write "]"]

end

def LiteralType.text : LiteralType → String
  | .string text => Text.quote text
  | .number value => value.numeral
  | .boolean value => if value then "true" else "false"
  | .null => "null"

mutual

def TypeExpr.strokes (handle : String → String) : TypeExpr → List Stroke
  | .keyword keyword => [.write keyword.text]
  | .array element =>
    let inner := element.strokes handle
    (if element.bindsLoosely then .write "(" :: inner ++ [.write ")"] else inner) ++ [.write "[]"]
  | .tuple elements => .write "[" :: TypeExpr.strokesList handle ", " elements ++ [.write "]"]
  | .union members => TypeExpr.strokesList handle " | " members
  | .function params result =>
    .write "(" :: TypeParam.strokesList handle params ++ .write ") => " :: result.strokes handle
  | .constructor params result =>
    .write "new " :: .write "(" :: TypeParam.strokesList handle params ++ .write ") => " :: result.strokes handle
  | .named name => [.write name.text]
  | .applied name args =>
    .write name.text :: .write "<" :: TypeExpr.strokesList handle ", " args ++ [.write ">"]
  | .object members =>
    if members.isEmpty then [.write "\x7b\x7d"]
    else .write "\x7b " :: TypeMember.strokesList handle members ++ [.write "\x7d"]
  | .literal value => [.write value.text]
  | .predicate param target => .write (param ++ " is ") :: target.strokes handle
  | .paren inner => .write "(" :: inner.strokes handle ++ [.write ")"]

def TypeExpr.strokesList (handle : String → String) (separator : String) : List TypeExpr → List Stroke
  | [] => []
  | [t] => t.strokes handle
  | t :: rest => t.strokes handle ++ .write separator :: TypeExpr.strokesList handle separator rest

def TypeParam.strokes (handle : String → String) : TypeParam → List Stroke
  | .mk name (some type) optional =>
    .write name :: (if optional then [.write "?"] else []) ++ .write ": " :: type.strokes handle
  | .mk name none optional => .write name :: if optional then [.write "?"] else []

def TypeParam.strokesList (handle : String → String) : List TypeParam → List Stroke
  | [] => []
  | [p] => p.strokes handle
  | p :: rest => p.strokes handle ++ .write ", " :: TypeParam.strokesList handle rest

def TypeMember.strokes (handle : String → String) : TypeMember → List Stroke
  | .property name type optional =>
    name.strokes handle ++ (if optional then [.write "?"] else []) ++ .write ": " :: type.strokes handle
  | .index keyName keyType valueType =>
    .write ("[" ++ keyName ++ ": ") :: keyType.strokes handle ++ .write "]: " :: valueType.strokes handle

def TypeMember.strokesList (handle : String → String) : List TypeMember → List Stroke
  | [] => []
  | m :: rest => m.strokes handle ++ .write "; " :: TypeMember.strokesList handle rest

end

/-- The members of an interface or an object type, in braces. -/
def TypeMember.strokesBlock (handle : String → String) (members : List TypeMember) : List Stroke :=
  (TypeExpr.object members).strokes handle

/-- A text written only under a condition. -/
def Stroke.writeIf (condition : Bool) (text : String) : List Stroke :=
  if condition then [.write text] else []

def Stroke.comment (text : String) : Stroke :=
  .write ("/*" ++ text ++ "*/")

/-- The type after a colon. -/
def TypeExpr.strokesOption (handle : String → String) : Option TypeExpr → List Stroke
  | some type => .write ": " :: type.strokes handle
  | none => []

/-- The value after an equals sign. -/
def Expr.strokesInit (handle : String → String) : Option Expr → List Stroke
  | some value => .write " = " :: value.strokes handle
  | none => []

/-- Decorators, each on its own line. -/
def Expr.strokesDecorators (handle : String → String) (decorators : List Expr) : List Stroke :=
  decorators.flatMap fun decorator => .write "@" :: decorator.strokes handle ++ [.newline]

def Param.strokes (handle : String → String) (param : Param) : List Stroke :=
  (param.decorators.flatMap fun decorator => .write "@" :: decorator.strokes handle ++ [.write " "]) ++
    (match param.access with
      | some access => [.write (access.text ++ " ")]
      | none => []) ++
    Stroke.writeIf param.isReadonly "readonly " ++
    .mark param.span :: .write param.name :: Stroke.writeIf param.optional "?" ++
    TypeExpr.strokesOption handle param.type

def Param.strokesList (handle : String → String) (params : List Param) : List Stroke :=
  Stroke.separated ", " (params.map (Param.strokes handle))

def VarDecl.strokes (handle : String → String) (decl : VarDecl) : List Stroke :=
  Stroke.writeIf decl.isDeclare "declare " ++
    .write (decl.kind.text ++ " " ++ decl.name) :: TypeExpr.strokesOption handle decl.type ++
    Expr.strokesInit handle decl.init ++ [.write ";"]

def Stmt.strokes (handle : String → String) : Stmt → List Stroke
  | .expr value => value.strokes handle ++ [.write ";"]
  | .result (some value) => .write "return" :: .write " " :: value.strokes handle ++ [.write ";"]
  | .result none => [.write "return", .write ";"]
  | .variable decl => decl.strokes handle

/-- A body in braces, or a semicolon where there is none. -/
def Block.strokes (handle : String → String) : Option Block → List Stroke
  | none => [.write ";"]
  | some [] => [.write " \x7b \x7d"]
  | some body =>
    .write " \x7b" :: .deeper ::
      (body.flatMap fun stmt => .newline :: .mark stmt.span :: stmt.value.strokes handle) ++
      [.shallower, .newline, .write "\x7d"]

/-- Parameters in parentheses, a result type and a body. -/
def strokesCallable (handle : String → String) (params : List Param) (result : Option TypeExpr)
    (body : Option Block) : List Stroke :=
  Param.strokesList handle params ++ .write ")" :: TypeExpr.strokesOption handle result ++ Block.strokes handle body

def Member.strokes (handle : String → String) : Member → List Stroke
  | .constructor c => .write "constructor(" :: strokesCallable handle c.params none c.body
  | .method m =>
    Expr.strokesDecorators handle m.decorators ++ Stroke.writeIf m.isStatic "static " ++ m.name.strokes handle ++
      .write "(" :: strokesCallable handle m.params m.result m.body
  | .field f =>
    (match f.comment with
      | some comment => [.comment comment, .newline]
      | none => []) ++
      Expr.strokesDecorators handle f.decorators ++ Stroke.writeIf f.isStatic "static " ++ f.name.strokes handle ++
      TypeExpr.strokesOption handle f.type ++ Expr.strokesInit handle f.init ++ [.write ";"]
  | .accessor a =>
    Expr.strokesDecorators handle a.decorators ++ Stroke.writeIf a.isStatic "static " ++
      .write (if a.isSetter then "set " else "get ") :: a.name.strokes handle ++
      .write "(" :: strokesCallable handle a.params a.type a.body

/-- A class from its keyword on, without its decorators. -/
def ClassDecl.strokesBody (handle : String → String) (decl : ClassDecl) : List Stroke :=
  Stroke.writeIf decl.isDeclare "declare " ++ .write ("class " ++ decl.name) ::
    (match decl.base with
      | some base => .write " extends " :: base.strokes handle
      | none => []) ++
    .write " \x7b" :: .deeper ::
    (decl.members.flatMap fun member => .newline :: .mark member.span :: member.value.strokes handle) ++
    .shallower :: (if decl.members.isEmpty then [] else [.newline]) ++ [.write "\x7d"]

def EnumMember.strokes (handle : String → String) (member : EnumMember) : List Stroke :=
  .write (" " ++ member.name) :: Expr.strokesInit handle member.init

/-- A declaration; `exported` puts the export keyword between the decorators and the rest. -/
def Decl.strokes (handle : String → String) (exported : Bool) (decl : Decl) : List Stroke :=
  let keyword := Stroke.writeIf exported "export "
  match decl with
  | .classDecl d => Expr.strokesDecorators handle d.decorators ++ keyword ++ d.strokesBody handle
  | .function d =>
    keyword ++ Stroke.writeIf d.isDeclare "declare " ++ .write ("function " ++ d.name ++ "(") ::
      strokesCallable handle d.params d.result d.body
  | .variable d => keyword ++ d.strokes handle
  | .interface d =>
    keyword ++ Stroke.writeIf d.isDeclare "declare " ++ .write ("interface " ++ d.name ++ " ") ::
      TypeMember.strokesBlock handle d.members
  | .typeAlias d =>
    keyword ++ Stroke.writeIf d.isDeclare "declare " ++ .write ("type " ++ d.name ++ " = ") ::
      d.type.strokes handle ++ [.write ";"]
  | .enum d =>
    keyword ++ Stroke.writeIf d.isDeclare "declare " ++ Stroke.writeIf d.isConst "const " ++
      .write ("enum " ++ d.name ++ " \x7b") :: Stroke.separated "," (d.members.map (EnumMember.strokes handle)) ++
      [.write " \x7d"]

/-- A list of names in braces. -/
def braced (names : List String) : String :=
  "\x7b " ++ Text.joined ", " names ++ " \x7d"

def ImportSpecifier.named? : ImportSpecifier → Option String
  | .named imported renamed typeOnly =>
    some ((if typeOnly then "type " else "") ++ imported ++
      match renamed with
      | some name => " as " ++ name
      | none => "")
  | _ => none

def ImportSpecifier.whole? : ImportSpecifier → Option String
  | .default name => some name
  | .whole name => some ("* as " ++ name)
  | .named .. => none

/-- An import: the default and namespace names, then the named ones in braces. -/
def ImportDecl.text (decl : ImportDecl) : String :=
  let named := decl.specifiers.filterMap ImportSpecifier.named?
  let clauses := decl.specifiers.filterMap ImportSpecifier.whole? ++ if named.isEmpty then [] else [braced named]
  "import " ++ (if decl.typeOnly then "type " else "") ++
    (if clauses.isEmpty then "" else Text.joined ", " clauses ++ " from ") ++ Text.quote decl.source ++ ";"

def ExportSpecifier.text (specifier : ExportSpecifier) : String :=
  match specifier.exported with
  | some exported => specifier.name ++ " as " ++ exported
  | none => specifier.name

def Item.strokes (handle : String → String) : Item → List Stroke
  | .imports d => [.write d.text]
  | .exportNamed specifiers source =>
    let origin := match source with
      | some source => " from " ++ Text.quote source
      | none => ""
    [.write ("export " ++ braced (specifiers.map ExportSpecifier.text) ++ origin ++ ";")]
  | .exportAll source => [.write ("export * from " ++ Text.quote source ++ ";")]
  | .exportDecl d => d.strokes handle true
  | .decl d => d.strokes handle false
  | .stmt s => s.strokes handle

/-- The name of the import at a position in the order of first use. -/
def aliasAt (position : Nat) : String :=
  "i" ++ Nat.repr position

/-- The name under which a module is imported, empty for one that is not. -/
def aliasOf (sources : List String) (source : String) : String :=
  match sources.idxOf? source with
  | some position => aliasAt position
  | none => ""

/-- The namespace imports of the modules, from a position on. -/
def hoisted : Nat → List String → List Stroke
  | _, [] => []
  | position, source :: rest =>
    .write ("import * as " ++ aliasAt position ++ " from " ++ Text.quote source ++ ";") :: .newline ::
      hoisted (position + 1) rest

namespace Items

/-- The imports of the external references, then every item on its own line. -/
def strokes (items : Items) : List Stroke :=
  let sources := externalsInOrder items
  hoisted 0 sources ++
    items.flatMap fun item => .mark item.span :: item.value.strokes (aliasOf sources) ++ [.newline]

def print (items : Items) : Printed :=
  Printed.ofStrokes (strokes items)

end Items

/-- The header comment and the items of a unit. -/
def SourceUnit.print (u : SourceUnit) : Printed :=
  let header := match u.header with
    | some comment => [Stroke.comment comment, .newline]
    | none => []
  Printed.ofStrokes (header ++ Items.strokes u.items)

end CompanionBuild
