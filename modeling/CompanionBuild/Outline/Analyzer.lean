import CompanionBuild.Analyzer
import CompanionBuild.Json.Printer
import CompanionBuild.Outline.World

/-! # An analyzer by script

A stand-in for an analyzer. Its companions bind one export of the framework's core each; a script may say otherwise for
single files, make any call fail, and have questions asked while the sources are analyzed. A failure that points inside a
character stops the run as soon as it is due, even where the build would set the failure aside.
-/

namespace CompanionBuild.Outline

structure Script where
  /-- The first form of a companion, by its name and its base. -/
  generate? : String → String → Option (Outcome Companion) := fun _ _ => none
  /-- Further companions of a file. -/
  companions : String → List String := fun _ => []
  metadata? : String → Option Json := fun _ => none
  analysisError : Option BuildError := none
  queries : List HostQuery := []
  /-- Resources that an asynchronous analysis waits for. -/
  awaited : List String := []
  /-- The type-check stub of a companion, by its name and its base. -/
  stub? : String → String → Option (Outcome (Option Companion)) := fun _ _ => none
  implementationsError : Option BuildError := none
  implementations : Option (List Companion) := none
  /-- Every source has a summary. -/
  hasSummaries : Bool := false
  /-- Sources whose companion has no statements. -/
  emptyFactories : List String := []
  /-- Part of the name of the export that companions bind. -/
  revision : Nat := 0

/-- A question with its answer. -/
structure Answered where
  query : HostQuery
  reply : query.Reply

structure Analysis where
  sources : List String := []
  checked : List String := []
  isAsync : Bool := false
  answers : List Answered := []
  /-- The texts that were waited for. -/
  texts : List String := []

/-- The name of the class that a file is taken to declare. -/
def className (file : String) : String :=
  match (Path.stripExtension (Path.basename file)).toList with
  | c :: cs => String.ofList (c.toUpper :: cs)
  | [] => ""

/-- A constant bound to an export of the framework's core. -/
def binding (name exported : String) : Located Item :=
  .synthetic (.stmt (.variable { name, init := some (.external .synthetic coreModule exported) }))

def factoryBinding (base exported : String) : Located Item :=
  binding (className base ++ "NgFactory") exported

/-- Hands out an outcome of the script, and stops the run for one that points inside a character. -/
def give {α : Type} (outcome : Outcome α) : HostDialogue World (Outcome α) := do
  match outcome with
  | .error (.splitCharacter offset) => Dialogue.act (stop ⟨offset⟩)
  | _ => pure ()
  pure outcome

section

variable (script : Script)

def generate (name : String) (base : Option String) : HostDialogue World (Outcome Companion) := do
  Dialogue.act (note ("generate " ++ name ++ " from " ++ base.getD "-"))
  let base := base.getD ""
  give ((script.generate? name base).getD
    (.ok { base, name, statements := some [factoryBinding base "ɵstub"] }))

def namesFor (file : String) : StateM World (List String) := do
  note ("find " ++ file)
  let own := if Path.isTypeScript file && !Path.isCompanion file then [Path.stripExtension file ++ ".axfactory.ts"]
    else []
  pure (own ++ script.companions file)

/-- The metadata of a module that declares one class. -/
def moduleMetadata (file : String) : Json :=
  .object (Table.ofList [
    ("__symbolic", .text "module"),
    ("version", .number (.int 4)),
    ("metadata", .object [(className file, .object [("__symbolic", .text "class")])])])

def collect (u : SourceUnit) : StateM World (Option Json) := do
  note ("collect " ++ u.name)
  pure ((script.metadata? u.name).or
    (if Text.contains u.text "export class" then some (moduleMetadata u.name) else none))

def askAll : List HostQuery → HostDialogue World (List Answered)
  | [] => pure []
  | query :: rest => do
    let reply ← HostDialogue.ask query
    let others ← askAll rest
    pure (⟨query, reply⟩ :: others)

/-- The text of a resource, waited for if need be. -/
def awaitText : Outcome ResourceText → Outcome String
  | .ok (.ready text) => .ok text
  | .ok (.deferred result) => result
  | .error error => .error error

def awaitAll : List String → HostDialogue World (Outcome (List String))
  | [] => pure (.ok [])
  | file :: rest => do
    match awaitText (← HostDialogue.ask (.resource file)) with
    | .error error => pure (.error error)
    | .ok text => do
      match ← awaitAll rest with
      | .error error => pure (.error error)
      | .ok texts => pure (.ok (text :: texts))

def analyze (mode : AnalysisMode) (sources checked : List String) : HostDialogue World (Outcome Analysis) := do
  Dialogue.act (note ("analyze " ++ (if mode = .async then "async" else "sync") ++
    " [" ++ Text.joined "," sources ++ "] [" ++ Text.joined "," checked ++ "]"))
  match script.analysisError with
  | some error => give (.error error)
  | none => do
    let answers ← askAll script.queries
    match ← (if mode = .async then awaitAll script.awaited else pure (.ok [])) with
    | .error error => pure (.error error)
    | .ok texts => pure (.ok { sources, checked, isAsync := mode = .async, answers, texts })

def typeCheckStub (name base : String) : HostDialogue World (Outcome (Option Companion)) := do
  Dialogue.act (note ("stub " ++ name ++ " from " ++ base))
  give ((script.stub? name base).getD
    (.ok (some { base, name, statements := some [binding "_typeCheck" "ɵtypeCheck"] })))

/-- The summary of a source: its own module name. -/
def summaryOf (base : String) : HostDialogue World (Outcome (List Companion)) := do
  if script.hasSummaries then
    match ← HostDialogue.ask (.moduleName base base) with
    | .error error => pure (.error error)
    | .ok name => pure (.ok [{
        base
        name := Path.stripExtension base ++ ".axsummary.json"
        source := some (Json.render (.object [("moduleName", .text name)])) }])
  else pure (.ok [])

/-- The factory of a source; a declaration file has none. -/
def factoryOf (base : String) : List Companion :=
  if Path.isDeclaration base then []
  else [{
    base
    name := Path.stripExtension base ++ ".axfactory.ts"
    statements := some (if script.emptyFactories.contains base then []
      else [factoryBinding base ("ɵcreate" ++ Nat.repr script.revision)]) }]

def implementationsOf : List String → HostDialogue World (Outcome (List Companion))
  | [] => pure (.ok [])
  | base :: rest => do
    match ← summaryOf script base with
    | .error error => pure (.error error)
    | .ok summaries => do
      match ← implementationsOf rest with
      | .error error => pure (.error error)
      | .ok others => pure (.ok (summaries ++ factoryOf script base ++ others))

def implementations (analysis : Analysis) : HostDialogue World (Outcome (List Companion)) := do
  Dialogue.act (note "impls")
  match script.implementationsError, script.implementations with
  | some error, _ => give (.error error)
  | none, some companions => pure (.ok companions)
  | none, none => implementationsOf script analysis.sources

def analyzer : Analyzer World Analysis where
  generate := generate script
  namesFor := namesFor script
  collect := collect script
  analyze := analyze script
  nothing := {}
  typeCheckStub := typeCheckStub script
  implementations := implementations script

end

end CompanionBuild.Outline
