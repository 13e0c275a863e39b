import CompanionBuild.Build.Basic
import CompanionBuild.Diagnostic.Relocation

/-! # The phases of a build

A stub program is made, in which every companion exists; the sources are analyzed; the stubs of companions are replaced
by what they can be type-checked against, and the program is made again. The second program has to take over the
structure of the first. When a phase fails, a program without companions takes its place: a structural error is then a
diagnostic, any other is passed on.
-/

namespace CompanionBuild.Setup

variable {ω A : Type} (setup : Setup ω A)

/-! ## Failing -/

/-- Puts a program without companions in place. -/
def installFallback : Step ω A Unit := do
  modify fun build =>
    { build with
      analysis := some setup.analyzer.nothing
      oldProgram := none
      stub := none
      situation := { build.situation with caches := build.situation.caches.degrade } }
  let program ← Step.ofHost (setup.makeProgram setup.roots none)
  let _ ← Step.ofHost HostM.takeParked
  modify fun build => { build with program := some program, phase := .errored }

/-- Goes on without companions after an error. -/
def fallBack (error : BuildError) : Step ω A Unit := do
  setup.installFallback
  match error with
  | .structural error =>
    modify fun build =>
      { build with
        structural := build.structural ++
          error.diagnostics (build.program.elim (fun _ => none) Program.unit?) }
  | other => throw other

/-- Refuses an action outside its phase. -/
def expect (expected : Phase) (action : BuildAction) : Step ω A Unit := do
  let phase := (← get).phase
  if phase = expected then pure () else throw (.usage (.wrongPhase action phase expected))

/-! ## The stub program -/

/-- The roots; where code is generated for libraries, a companion among them would be overwritten by its own output. -/
def stubRoots : List String :=
  if setup.options.generateCodeForLibraries = some false then setup.roots
  else setup.roots.filter fun root => !Path.isCompanion root

/-- The companions of some roots, which have to be roots themselves when nothing is resolved. -/
def rootCompanions : List String → HostM ω (List String)
  | [] => pure []
  | root :: rest => do
    let names ← if ← setup.host.getsCompanions root then HostM.inWorld (setup.analyzer.namesFor root) else pure []
    let others ← rootCompanions rest
    pure (names ++ others)

/-- The sources among some units. -/
def sourcesAmong : List SourceUnit → HostM ω (List String)
  | [] => pure []
  | u :: rest => do
    let isSource ← setup.host.isSource u.name
    let others ← sourcesAmong rest
    pure (if isSource then u.name :: others else others)

/-- A file that can be type-checked. -/
def isChecked (file : String) : Bool :=
  Path.isTypeScript file && !Path.isDeclaration file

def createStub (old : Option (Program ω)) : Attempt ω (Stub ω) := do
  let companions ← if setup.options.noResolve then setup.rootCompanions setup.roots else pure []
  let roots := setup.stubRoots ++ companions
  let program ← setup.createProgram roots old
  let sources ← setup.sourcesAmong program.units
  pure ⟨program, roots, sources, (program.units.map (·.name)).filter isChecked⟩

def buildStub : Step ω A Unit := do
  expect .uninitialized .buildStub
  match ← Step.outcome (setup.createStub (← get).oldProgram) with
  | .ok stub => modify fun build => { build with stub := some stub, phase := .stubBuilt }
  | .error error => setup.fallBack error

/-! ## The analysis -/

/-- Refuses a second analysis and one out of order, and notes the mode of this one. -/
def beginAnalysis (mode : AnalysisMode) : Step ω A Unit := do
  match (← get).mode with
  | some before => throw (.usage (if before = mode then .loadedTwice else .loadedBothWays))
  | none => do
    expect .stubBuilt .analyze
    modify fun build => { build with mode := some mode }

/-- The analysis of a stub program, or the error parked while it was made. -/
def analysisOf (mode : AnalysisMode) (stub : Option (Stub ω)) : Attempt ω A := do
  match stub with
  | none => throw (.consistency .stubMissing)
  | some stub => do
    let analysis ← ExceptT.mk (setup.host.consult (setup.analyzer.analyze mode stub.sources stub.checked))
    Attempt.raiseParked
    pure analysis

def analyze (mode : AnalysisMode) : Step ω A Unit := do
  beginAnalysis mode
  match ← Step.outcome (setup.analysisOf mode (← get).stub) with
  | .ok analysis => modify fun build => { build with analysis := some analysis, phase := .analyzed }
  | .error error => setup.fallBack error

/-! ## The typed program -/

/-- The end of the name of a companion that is type-checked. -/
def factorySuffix : String := ".axfactory.ts"

/-- Replaces the stub of one companion. -/
def replaceStub (file : String) : Attempt ω Unit := do
  if Text.endsWith file factorySuffix then
    match ← setup.host.generatable file with
    | .yes (some base) => do
      let made ← ExceptT.mk (setup.host.consult (setup.analyzer.typeCheckStub file base))
      match made with
      | some companion => do
        let _ ← setup.host.updateCompanion companion
      | none => pure ()
    | _ => pure ()
  else pure ()

/-- The program made anew with type-check stubs in place. -/
def createTyped (stub : Stub ω) : Attempt ω (Program ω) := do
  stub.program.units.forM fun u => setup.replaceStub u.name
  let program ← setup.createProgram stub.roots (some stub.program)
  if program.reuse = .completely then pure program
  else throw (.consistency .structureChanged)

def buildTyped : Step ω A Unit := do
  expect .analyzed .buildTyped
  match (← get).stub with
  | none => throw (.consistency .stubMissing)
  | some stub => do
    modify fun build => { build with stub := none }
    let result ← Step.outcome (setup.createTyped stub)
    modify fun build => { build with oldProgram := none }
    match result with
    | .ok program => modify fun build => { build with program := some program, phase := .finalBuilt }
    | .error error => setup.fallBack error

/-- All three phases, as far as they go. -/
def load (mode : AnalysisMode) : Step ω A Unit := do
  setup.buildStub
  if (← get).phase = .stubBuilt then setup.analyze mode
  if (← get).phase = .analyzed then setup.buildTyped

end CompanionBuild.Setup
