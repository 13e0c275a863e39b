import CompanionBuild.Lowering.Expression
import CompanionBuild.Resource.Metadata

/-! # Lowered names inside collected metadata

The metadata of a declaration is walked beside the declaration itself, and where a node has a request, its value becomes
a reference to the name that the node is bound to.
-/

namespace CompanionBuild.Lowering

/-- The metadata of a reference to a name. -/
def reference (name : String) : Json :=
  .object (Table.ofList [("__symbolic", .text "reference"), ("name", .text name)])

/-- A structured value becomes a reference; a plain one says all there is to say. -/
def referenceFor (name : String) : Json → Json
  | .object _ | .array _ => reference name
  | value => value

/-- A field of an object changed in place. -/
def mapField (name : String) (f : Json → Json) : Json → Json
  | .object fields =>
    match Table.get? fields name with
    | some value => .object (Table.put fields name (f value))
    | none => .object fields
  | json => json

def mapElements (f : List Json → List Json) : Json → Json
  | .array elements => .array (f elements)
  | json => json

variable (requests : Requests)

/-- The reference for a requested node, else the value with its inside changed. -/
def referenceOr (e : Expr) (inside : Json → Json) (json : Json) : Json :=
  match requests.find? e with
  | some request => referenceFor request.name json
  | none => inside json

mutual

/-- The metadata of an expression with the values of requested nodes replaced. -/
def substitute : Expr → Json → Json
  | e@(.literal ..) | e@(.ident ..) | e@(.arrow ..) | e@(.spread ..) | e@(.external ..) => referenceOr requests e id
  | e@(.call _ callee args) | e@(.new _ callee args) => referenceOr requests e fun json =>
    mapField "arguments" (mapElements (substituteElements args)) (mapField "expression" (substitute callee) json)
  | e@(.member _ object _) => referenceOr requests e (mapField "expression" (substitute object))
  | e@(.array _ elements) => referenceOr requests e (mapElements (substituteElements elements))
  | e@(.object _ properties) => referenceOr requests e (substituteProperties properties)
  | e@(.paren _ inner) => referenceOr requests e (substitute inner)

/-- The elements side by side; a spread shifts what follows it, so it ends the walk. -/
def substituteElements : List Expr → List Json → List Json
  | e :: rest, value :: values =>
    match e with
    | .spread .. => value :: values
    | e => substitute e value :: substituteElements rest values
  | _, values => values

def substituteProperties : List Property → Json → Json
  | [], json => json
  | .keyValue key value :: rest, json =>
    let json := match key.text? with
      | some name => mapField name (substitute value) json
      | none => json
    substituteProperties rest json
  | .shorthand _ :: rest, json | .spread _ :: rest, json => substituteProperties rest json

end

/-- What a unit declares under a name: a class or a variable. -/
inductive Declared where
  | ofClass (value : ClassDecl)
  | ofVariable (value : VarDecl)

/-- The first class or variable of a name, exported or not. -/
def declared? (u : SourceUnit) (name : String) : Option Declared :=
  u.items.findSome? fun item =>
    match item.value with
    | .decl (.classDecl c) | .exportDecl (.classDecl c) => if c.name = name then some (.ofClass c) else none
    | .decl (.variable d) | .exportDecl (.variable d) | .stmt (.variable d) =>
      if d.name = name then some (.ofVariable d) else none
    | _ => none

/-- The metadata of a member with the lowered names in place. -/
def lowerMember (u : SourceUnit) (name : String) (metadata : Json) : Json :=
  match declared? u name with
  | some (.ofClass c) =>
    mapField "decorators" (mapElements fun entries =>
      List.zipWith (substitute requests) c.decorators entries ++ entries.drop c.decorators.length) metadata
  | some (.ofVariable d) =>
    match d.init with
    | some init => substitute requests init metadata
    | none => metadata
  | none => metadata

/-- The lowering of metadata, `ask` finding the requests of a unit. -/
def metadataTransformer {σ : Type} (ask : SourceUnit → StateM σ Requests) : MetadataTransformer σ :=
  fun u name metadata => do
    let requests ← ask u
    pure (if requests.isEmpty then metadata else lowerMember requests u name metadata, none)

end CompanionBuild.Lowering
