import CompanionBuild.Json.Basic
import CompanionBuild.Resource.Inline

/-! # Resources inside collected metadata

The metadata of a class lists its decorators as calls. A component call gets its resources like the decorator in the
source does. The revision goes on until a resource fails, and what it has made until then stays.
-/

namespace CompanionBuild

/-- A revision of metadata that may stop part-way: what it made, and why it stopped. -/
abbrev Revised (α : Type) := α × Option TransformError

/-- A revision of the metadata of one member of a unit, in a world of states `σ`. -/
abbrev MetadataTransformer (σ : Type) := SourceUnit → String → Json → StateM σ (Revised Json)

/-- The elements revised one after the other, up to the first that fails. -/
def reviseEach {σ α : Type} (revise : α → StateM σ (Revised α)) : List α → StateM σ (Revised (List α))
  | [] => pure ([], none)
  | element :: rest => do
    match ← revise element with
    | (made, some error) => pure (made :: rest, some error)
    | (made, none) => do
      let (others, error) ← reviseEach revise rest
      pure (made :: others, error)

/-- A field of an object revised in place; anything without the field stays. -/
def Json.reviseField {σ : Type} (json : Json) (name : String) (revise : Json → StateM σ (Revised Json)) :
    StateM σ (Revised Json) :=
  match json with
  | .object fields =>
    match Table.get? fields name with
    | some value => do
      let (made, error) ← revise value
      pure (.object (Table.put fields name made), error)
    | none => pure (json, none)
  | _ => pure (json, none)

/-- The elements of an array revised; anything but an array stays. -/
def Json.reviseElements {σ : Type} (revise : Json → StateM σ (Revised Json)) (json : Json) :
    StateM σ (Revised Json) :=
  match json with
  | .array elements => do
    let (made, error) ← reviseEach revise elements
    pure (.array made, error)
  | _ => pure (json, none)

/-- The value of a field is a given text. -/
def Json.fieldIs (json : Json) (name text : String) : Bool :=
  (json.field? name).bind Json.text? == some text

namespace Resource

/-- A call of the component decorator. -/
def isComponentCall (decorator : Json) : Bool :=
  decorator.fieldIs "__symbolic" "call" &&
    (decorator.field? "expression").any fun callee =>
      callee.fieldIs "__symbolic" "reference" && callee.fieldIs "module" coreModule &&
        callee.fieldIs "name" componentName

def isTruthy : Json → Bool
  | .null => false
  | .bool value => value
  | .text value => value ≠ ""
  | .number (.int value) => value ≠ 0
  | .number (.float value) => value.whole? ≠ some 0
  | .array _ | .object _ => true

/-- A list that may be missing or `null`. -/
def listField? (fields : Table Json) (name : String) : Option (List Json) :=
  match Table.get? fields name with
  | none | some .null => some []
  | some (.array elements) => some elements
  | some _ => none

section

variable {σ : Type} (load : String → ResourceM σ String)

/-- The text of a URL that came as a value. -/
def loadValue (url : Json) : ResourceM σ String :=
  match url.text? with
  | some url => load url
  | none => throw (.resource .urlNotText)

def loadValues : List Json → ResourceM σ (List Json)
  | [] => pure []
  | url :: rest => do
    let text ← loadValue load url
    let texts ← loadValues rest
    pure (.text text :: texts)

/-- The template of an argument, in place of its URL. -/
def inlineTemplate (fields : Table Json) : ResourceM σ (Table Json) :=
  match (Table.get? fields "templateUrl").filter isTruthy with
  | some url => do
    let text ← loadValue load url
    pure (Table.remove (Table.put fields "template" (.text text)) "templateUrl")
  | none => pure fields

/-- The styles of an argument, those of its URLs after those written in place. -/
def inlineStyles (fields : Table Json) : ResourceM σ (Table Json) :=
  match listField? fields "styles", listField? fields "styleUrls" with
  | none, _ => throw (.argument .metadataStyles)
  | some _, none => throw (.argument .metadataStyleUrls)
  | some styles, some urls => do
    let styles := styles ++ (← loadValues load urls)
    if styles.isEmpty then pure fields
    else pure (Table.remove (Table.put fields "styles" (.array styles)) "styleUrls")

/-- An argument of a component call; the template stays in place when the styles fail. -/
def inlineArgument (argument : Json) : StateM σ (Revised Json) :=
  match argument with
  | .object fields => do
    match ← (inlineTemplate load fields).run with
    | .error error => pure (argument, some error)
    | .ok fields =>
      match ← (inlineStyles load fields).run with
      | .error error => pure (.object fields, some error)
      | .ok fields => pure (.object fields, none)
  | _ => pure (argument, none)

def inlineCall (decorator : Json) : StateM σ (Revised Json) :=
  if isComponentCall decorator then
    decorator.reviseField "arguments" (Json.reviseElements (inlineArgument load))
  else pure (decorator, none)

end

/-- The metadata of a class with the resources of its component calls in place. -/
def inlineMetadata {σ : Type} (host : ResourceHost σ) : MetadataTransformer σ := fun u _ metadata =>
  if metadata.fieldIs "__symbolic" "class" then
    metadata.reviseField "decorators" (Json.reviseElements (inlineCall (host.get u.name)))
  else pure (metadata, none)

end Resource

end CompanionBuild
