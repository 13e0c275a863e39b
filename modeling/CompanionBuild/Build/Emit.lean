import CompanionBuild.Build.Diagnostics
import CompanionBuild.Emit.Flags
import CompanionBuild.Emit.Mapper
import CompanionBuild.Emit.Pipeline
import CompanionBuild.Emit.Router
import CompanionBuild.Json.Printer

/-! # The emit of a build

Companions are made in full, those that an earlier build emitted unchanged are left out, and so are unchanged units. The
compiler emits the rest, one by one while there are few. Companions that are finished texts, and metadata, are written
beside the compiler's outputs. A failed emit leaves the records of the build alone.
-/

namespace CompanionBuild

structure EmitOptions (ω : Type) where
  flags : EmitFlags := .usual
  isCancelled : Bool := false
  /-- Run after the build's own transforms and before the lowering of decorators. -/
  before : List (Transform ω) := []
  after : List (Transform ω) := []
  batching : Batching := .automatic

/-- A transform of the world alone, inside a larger state. -/
def Transform.lift {σ ω : Type} [HoldsWorld σ ω] (transform : Transform ω) : Transform σ where
  name := transform.name
  apply symbols u := ExceptT.mk fun findings => HoldsWorld.lift ((transform.apply symbols u).run findings)

/-- The state of an emit under way. -/
structure Emission (ω : Type) where
  situation : Situation ω
  routed : Routed

instance {ω : Type} : HoldsWorld (Emission ω) ω where
  world emission := emission.situation.world
  setWorld world emission := { emission with situation := { emission.situation with world } }

/-- A part of an emit, which may fail; a failure undoes nothing. -/
abbrev EmitM (ω : Type) := ExceptT BuildError (StateM (Emission ω))

namespace Emission

variable {ω α : Type}

def ofHost (step : HostM ω α) : StateM (Emission ω) α := fun emission =>
  let (value, situation) := step emission.situation
  (value, { emission with situation })

def ofAttempt (attempt : Attempt ω α) : EmitM ω α :=
  ExceptT.mk (ofHost attempt.run)

def ofRouter (step : RouterM ω α) : EmitM ω α :=
  ExceptT.mk fun emission =>
    let ((outcome, routed), world) := (step.run.run emission.routed).run emission.situation.world
    (outcome, { situation := { emission.situation with world }, routed })

/-- The answer to the compiler while it emits. -/
def answer (pipeline : Pipeline (Situation ω)) (router : Router ω) : (q : EmitQuery) → StateM (Emission ω) q.Reply
  | .transform stage symbols findings u =>
    let transforms := match stage with
      | .before => pipeline.before
      | .after => pipeline.after
    ofHost ((Transform.applyAll symbols transforms u).run.run findings)
  | .write output => (ofRouter (router.passOutput output)).run

end Emission

/-- Below this many files, units are emitted one at a time. -/
def batchThreshold : Nat := 20

/-- The batching that is meant for a number of files. -/
def Batching.resolve (batching : Batching) (files : Nat) : Batching :=
  match batching with
  | .automatic => if files < batchThreshold then .perFile else .wholeProgram
  | chosen => chosen

/-- What is to be emitted, and how. -/
structure EmitPlan (ω : Type) where
  program : Program ω
  companions : List Companion
  flags : EmitFlags
  isCancelled : Bool
  batching : Batching
  pipeline : Pipeline (Situation ω)
  router : Router ω
  /-- The units to be emitted. -/
  units : List SourceUnit

namespace EmitPlan

variable {ω : Type} (plan : EmitPlan ω)

/-- The companions that the compiler emits. -/
def printed : List Companion :=
  plan.companions.filter fun companion => companion.statements.isSome

/-- The companions that are finished texts. -/
def finished : List Companion :=
  plan.companions.filter fun companion => companion.source.isSome

/-- Has the compiler emit a unit, or all of them. -/
def emitTarget (target : Option String) : EmitM ω EmitResult :=
  ExceptT.mk ((plan.program.emit {
    target
    onlyDeclarations := plan.flags.onlyDeclarations
    transforms := plan.pipeline.names
    isCancelled := plan.isCancelled }).run (Emission.answer plan.pipeline plan.router))

def emitEach : List String → EmitM ω (List EmitResult)
  | [] => pure []
  | target :: rest => do
    let result ← plan.emitTarget (some target)
    let results ← emitEach rest
    pure (result :: results)

/-- The units that are emitted one by one: those of the user, then companions. -/
def targets : List String :=
  plan.units.map (·.name) ++ plan.printed.map (·.name)

/-- The compiler's part of the emit, with the number of the user's files in it. -/
def emitUnits : EmitM ω (EmitResult × Nat) := do
  match plan.batching with
  | .perFile => do
    let results ← plan.emitEach plan.targets
    pure (.concat results, plan.units.length)
  | _ => do
    let result ← plan.emitTarget none
    pure (result, plan.program.units.length - plan.printed.length)

/-- Passes on a companion that is a finished text. -/
def passFinished (mapper : OutputMapper) (companion : Companion) : EmitM ω Unit :=
  Emission.ofRouter
    (plan.router.pass (mapper.map companion.name) (companion.source.getD "") (some companion) [])

/-- The user's units of the program, which are those with metadata of their own. -/
def described : List SourceUnit :=
  plan.program.units.filter fun u => !u.isDeclaration && !Path.isCompanion u.name

/-- Passes on the metadata of a unit. -/
def passMetadata (host : Host ω) (mapper : OutputMapper) (u : SourceUnit) : EmitM ω Unit := do
  match ← Emission.ofAttempt (host.unitMetadata u) with
  | none => pure ()
  | some metadata =>
    Emission.ofRouter (plan.router.pass (mapper.map (Path.metadataOfSource u.name))
      (Json.render (.array [metadata])) none [u.name])

/-- The number of files with metadata, as far as they are asked for. -/
def describedCount : Nat :=
  if plan.flags.metadata then plan.described.length else 0

/-- The remark on an emit that took some milliseconds. -/
def summary (elapsed userFiles : Nat) : Diagnostic :=
  .remark (Text.joined "\n" [
    "Emitted in " ++ Nat.repr elapsed ++ "ms",
    "- " ++ Nat.repr userFiles ++ " user ts files",
    "- " ++ Nat.repr plan.printed.length ++ " generated ts files",
    "- " ++ Nat.repr (plan.finished.length + plan.describedCount) ++ " generated json files"]) Options.reporter

/-- Passes on the companions that are finished texts and the metadata, beside the outputs seen so far. -/
def emitRest (host : Host ω) (mapper : OutputMapper) : EmitM ω Unit := do
  if plan.flags.companions then plan.finished.forM (plan.passFinished mapper)
  if plan.flags.metadata then plan.described.forM (plan.passMetadata host mapper)

end EmitPlan

namespace EmitResult

def remarking (result : EmitResult) (remark : Diagnostic) : EmitResult :=
  { result with diagnostics := result.diagnostics ++ [remark] }

/-- The result of an emit that produced nothing. -/
def skipped (diagnostics : List Diagnostic) : EmitResult :=
  { isSkipped := true, diagnostics }

end EmitResult

namespace Setup

variable {ω A : Type} (setup : Setup ω A)

/-- The companions that an earlier build did not emit in the same form. -/
def changedCompanions (companions : List Companion) : List Companion :=
  companions.filter fun companion =>
    setup.options.isInRootDir companion.name &&
      !(setup.previous.companions.get? companion.name).any companion.isEquivalent

/-- The user's units that an earlier build did not emit with the same text. -/
def changedUnits (units : List SourceUnit) : List SourceUnit :=
  units.filter fun u =>
    !u.isDeclaration && !Path.isCompanion u.name &&
      !(setup.previous.units.get? u.name).any fun old => old.text = u.text

/-- The companions to be emitted; a structural error makes diagnostics instead. -/
def companionsForEmit (flags : EmitFlags) (analysis : Option A) :
    Attempt ω (Except (List Diagnostic) (List Companion)) := do
  if !flags.companions then pure (.ok [])
  else
    match analysis with
    | none => throw (.usage .generatedTooEarly)
    | some analysis => do
      match ← ExceptT.lift (setup.host.consult (setup.analyzer.implementations analysis)) with
      | .ok companions => pure (.ok (setup.changedCompanions companions))
      | .error (.structural error) =>
        pure (.error [{ message := error.message, code := Options.errorCode, source := some Options.reporter }])
      | .error other => throw other

/-- What is to be emitted, given the companions. -/
def plan (program : Program ω) (companions : List Companion) (options : EmitOptions ω) : EmitPlan ω :=
  let units := setup.changedUnits program.units
  let printed := companions.filter fun companion => companion.statements.isSome
  { program
    companions
    flags := options.flags
    isCancelled := options.isCancelled
    batching := options.batching.resolve (units.length + printed.length)
    pipeline := Pipeline.ofOptions setup.options setup.host.resources Host.requestsFor companions
      (isCore setup.options program.units) (options.before.map Transform.lift) (options.after.map Transform.lift)
    router :=
      { options := setup.options
        files := setup.files
        unit? := program.unit?
        companions := Table.ofList (companions.map fun companion => (companion.name, companion)) }
    units }

/-- The result with its diagnostics on templates, where they block an emit. -/
def withTemplates (caches : Caches) (structural : List TemplateDiagnostic) (result : EmitResult) :
    Outcome EmitResult :=
  if !setup.options.noEmitOnError then .ok result
  else
    match relocate (Host.spanAt caches) result.diagnostics with
    | .error split => .error (.splitCharacter split.offset)
    | .ok relocated =>
      .ok { result with
        diagnostics := relocated.kept ++ (structural ++ relocated.moved).map (·.toDiagnostic) }

/-- Carries out a plan. -/
def emitPlan (plan : EmitPlan ω) (structural : List TemplateDiagnostic) (started : Nat) : EmitM ω EmitResult := do
  let (result, userFiles) ← plan.emitUnits
  let result ← ExceptT.mk (pure (setup.withTemplates (← get).situation.caches structural result))
  match (← get).routed.mapping.head? with
  | none => pure (result.remarking (.remark "Emitted no files." Options.reporter))
  | some (output, source) => do
    let mapper ← ExceptT.mk (pure ((OutputMapper.ofSample setup.options.outDir (some (source, output))).mapError
      .consistency))
    plan.emitRest setup.host mapper
    if setup.options.diagnostics then
      let now ← (HoldsWorld.lift setup.clock : StateM (Emission ω) Nat)
      pure (result.remarking (plan.summary (now - started) userFiles))
    else pure result

/-- Carries out a plan for the build, and keeps what was emitted if that succeeds. -/
def emitAndRecord (plan : EmitPlan ω) (started : Nat) : Step ω A EmitResult := do
  let build ← get
  let (outcome, emission) := (setup.emitPlan plan build.structural started).run.run ⟨build.situation, {}⟩
  set { build with situation := emission.situation }
  match outcome with
  | .error error => throw error
  | .ok result => do
    modify fun build =>
      { build with
        emitted := ⟨emission.routed.summaries, plan.companions, emission.routed.units⟩
        phase := if build.phase = .errored then .errored else .emitted }
    pure result

def emit (options : EmitOptions ω) : Step ω A EmitResult := do
  let build ← get
  let program ← ExceptT.mk (pure (build.finalProgram .emit))
  let started ← Step.ofHost (HostM.inWorld setup.clock)
  if !options.flags.producesFiles then pure (.skipped [])
  else
    match ← Step.outcome (setup.companionsForEmit options.flags build.analysis) with
    | .error error => throw error
    | .ok (.error diagnostics) => pure (.skipped diagnostics)
    | .ok (.ok companions) => setup.emitAndRecord (setup.plan program companions options) started

end Setup

end CompanionBuild
