import CompanionBuild.Resource.Loader

/-! # Resources inside component decorators

In the argument of a component decorator `templateUrl` becomes `template` with the loaded text in its place, and the
inline styles and the loaded style sheets become one `styles` property at the end, in the order in which they were
written. The same happens in a field `decorators` that already holds the records of decorators.
-/

namespace CompanionBuild.Resource

/-- The decorator whose argument names resources. -/
def componentName : String := "Component"

/-- An identifier bound by a named import of the component decorator. -/
def isComponent (u : SourceUnit) : Expr → Bool
  | .ident _ name => (u.importOf? name).any fun i => i.source = coreModule && i.name = componentName
  | _ => false

section

variable {σ : Type} (load : String → ResourceM σ String)

/-- The loaded texts of a list of style URLs. -/
def loadStyles : List Expr → ResourceM σ (List Expr)
  | [] => pure []
  | element :: rest => do
    match element.stringLiteral? with
    | none => throw (.resource .styleUrlNotLiteral)
    | some url => do
      let text ← load url
      let texts ← loadStyles rest
      pure (Expr.string text :: texts)

/-- What becomes of one property: the properties that stay in its place, and the styles it contributes. -/
def inlineProperty (property : Property) : ResourceM σ (List Property × List Expr) :=
  match property with
  | .keyValue key value =>
    match key.text? with
    | some "styles" =>
      match value with
      | .array _ elements => pure ([], elements)
      | _ => throw (.argument .styles)
    | some "styleUrls" =>
      match value with
      | .array _ elements => do pure ([], ← loadStyles load elements)
      | _ => throw (.argument .styleUrls)
    | some "templateUrl" =>
      match value.stringLiteral? with
      | some url => do
        let text ← load url
        pure ([.named "template" (.literal value.span (.string text))], [])
      | none => throw (.resource .templateUrlNotLiteral)
    | _ => pure ([property], [])
  | _ => pure ([property], [])

def inlineProperties : List Property → ResourceM σ (List Property × List Expr)
  | [] => pure ([], [])
  | property :: rest => do
    let (kept, styles) ← inlineProperty load property
    let (keptRest, stylesRest) ← inlineProperties rest
    pure (kept ++ keptRest, styles ++ stylesRest)

/-- The arguments of a component decorator; anything but one object is left to the type checker. -/
def inlineArguments (args : List Expr) : ResourceM σ (List Expr) :=
  match args with
  | [.object span properties] => do
    let (kept, styles) ← inlineProperties load properties
    let styles := if styles.isEmpty then [] else [Property.named "styles" (.array .synthetic styles)]
    pure [.object span (kept ++ styles)]
  | _ => pure args

variable (u : SourceUnit)

def inlineDecorator (decorator : Expr) : ResourceM σ Expr :=
  match decorator with
  | .call span callee args =>
    if isComponent u callee then do pure (.call span callee (← inlineArguments load args)) else pure decorator
  | _ => pure decorator

/-- A record with a `type` that is the component decorator. -/
def isComponentRecord (properties : List Property) : Bool :=
  properties.any fun property =>
    match property with
    | .keyValue (.ident "type") value => isComponent u value
    | _ => false

/-- The arguments of a record of the component decorator. -/
def inlineRecordProperty (property : Property) : ResourceM σ Property :=
  match property with
  | .keyValue (.ident "args") (.array span elements) => do
    pure (.keyValue (.ident "args") (.array span (← inlineArguments load elements)))
  | _ => pure property

def inlineRecord (annotated : Expr) : ResourceM σ Expr :=
  match annotated with
  | .object span properties =>
    if isComponentRecord u properties then do
      pure (.object span (← properties.mapM (inlineRecordProperty load)))
    else pure annotated
  | _ => pure annotated

/-- The records in a field that holds decorators. -/
def inlineMember (member : Located Member) : ResourceM σ (Located Member) :=
  match member.value with
  | .field f =>
    if f.name.ident? = some "decorators" then
      match f.init with
      | some (.array span records) => do
        let records ← records.mapM (inlineRecord load u)
        pure { member with value := .field { f with init := some (.array span records) } }
      | _ => pure member
    else pure member
  | _ => pure member

def inlineClass (c : ClassDecl) : ResourceM σ ClassDecl := do
  let decorators ← c.decorators.mapM (inlineDecorator load u)
  let members ← c.members.mapM (inlineMember load u)
  pure { c with decorators, members }

def inlineItem (item : Located Item) : ResourceM σ (Located Item) :=
  match item.value.class? with
  | some c => do pure { item with value := item.value.withClass (← inlineClass load u c) }
  | none => pure item

end

/-- The unit with the resources of its components in place. -/
def inlineUnit {σ : Type} (host : ResourceHost σ) (u : SourceUnit) : ResourceM σ SourceUnit := do
  let items ← u.items.mapM (inlineItem (host.get u.name) u)
  pure { u with items }

def inlining {σ : Type} (host : ResourceHost σ) : Transform σ :=
  .ofResource "inline-resources" (inlineUnit host)

end CompanionBuild.Resource
