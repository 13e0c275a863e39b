import CompanionBuild.Transform

/-! # Loading resources

Templates and style sheets are named by URLs in the source that uses them. The host says which file a URL means and
hands out its text; a text that is not there yet cannot be inlined.
-/

namespace CompanionBuild

inductive LoadedResource where
  | text (content : String)
  /-- The host offers the text only later. -/
  | deferred
deriving DecidableEq, Repr

/-- The part of a host that knows resources, in a world of states `σ`. -/
structure ResourceHost (σ : Type) where
  /-- The file that a URL in a file means. -/
  fileOf : String → String → StateM σ (Option String)
  load : String → StateM σ (Except TransformError LoadedResource)

/-- A computation in a world of states `σ` that may fail; a failure undoes nothing. -/
abbrev ResourceM (σ : Type) := ExceptT TransformError (StateM σ)

/-- The text of the resource that `url` means in `file`. -/
def ResourceHost.get {σ : Type} (host : ResourceHost σ) (file url : String) : ResourceM σ String := do
  match ← host.fileOf url file with
  | none => throw (.resource (.unresolved url file))
  | some target =>
    match ← ExceptT.mk (host.load target) with
    | .text content => pure content
    | .deferred => throw (.resource .deferred)

/-- A resource that is known beforehand. -/
structure ListedResource where
  url : String
  file : String
  /-- What loading the file gives; without it the file cannot be loaded. -/
  content : Option LoadedResource

/-- A host that knows the listed resources only. -/
def ResourceHost.ofList {σ : Type} (listed : List ListedResource) : ResourceHost σ where
  fileOf url _ := pure ((listed.find? fun entry => entry.url = url).map (·.file))
  load file := pure <|
    match listed.findSome? fun entry => if entry.file = file then entry.content else none with
    | some content => .ok content
    | none => .error (.resource (.host ("cannot load " ++ file)))

/-- A transform that records no findings. -/
def Transform.ofResource {σ : Type} (name : String) (f : SourceUnit → ResourceM σ SourceUnit) : Transform σ where
  name
  apply _ u := ExceptT.mk (StateT.lift (f u).run)

end CompanionBuild
