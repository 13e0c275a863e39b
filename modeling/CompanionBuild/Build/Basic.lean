import CompanionBuild.Analyzer
import CompanionBuild.Compiler

/-! # The state of a build

A build is set up once and then goes through its phases. What it needs of an earlier build are that build's records: its
program, and what it emitted.
-/

namespace CompanionBuild

/-- What a finished build leaves to the next one. -/
structure Records (ω : Type) where
  program : Option (Program ω) := none
  summaries : List LibrarySummary := []
  companions : Table Companion := []
  units : Table SourceUnit := []

structure Setup (ω A : Type) where
  roots : List String
  options : Options
  files : FileSystem ω
  overrides : Overrides ω := {}
  compiler : Compiler ω
  analyzer : Analyzer ω A
  previous : Records ω := {}
  /-- The time in milliseconds. -/
  clock : StateM ω Nat := pure 0

/-- The first program, in which companions hold little more than their names. -/
structure Stub (ω : Type) where
  program : Program ω
  roots : List String
  /-- The files to be analyzed. -/
  sources : List String
  /-- The files that can be type-checked. -/
  checked : List String

/-- What the last successful emit produced. -/
structure Emitted where
  summaries : List LibrarySummary := []
  companions : List Companion := []
  units : List SourceUnit := []

structure Build (ω A : Type) where
  phase : Phase := .uninitialized
  mode : Option AnalysisMode := none
  oldProgram : Option (Program ω)
  stub : Option (Stub ω) := none
  program : Option (Program ω) := none
  analysis : Option A := none
  structural : List TemplateDiagnostic := []
  emitted : Emitted := {}
  situation : Situation ω

/-- A step of a build, which may fail; a failure undoes nothing. -/
abbrev Step (ω A : Type) := ExceptT BuildError (StateM (Build ω A))

namespace Setup

variable {ω A : Type} (setup : Setup ω A)

/-- A build before its first phase, in a given world. -/
def start (world : ω) : Build ω A where
  oldProgram := setup.previous.program
  situation := ⟨world, .ofSummaries setup.previous.summaries⟩

/-- The host as the compiler and the analyzer see it. -/
def host : Host ω where
  options := setup.options
  roots := setup.roots
  files := setup.files
  parse := setup.compiler.parse
  collect := setup.analyzer.collect
  overrides := setup.overrides

/-- The program that the compiler makes of some roots. -/
def makeProgram (roots : List String) (old : Option (Program ω)) : HostM ω (Program ω) :=
  (setup.compiler.createProgram roots setup.options old).run
    (setup.host.answerCompiler setup.analyzer.toGenerator)

/-- The program of some roots, or the error parked while it was made. -/
def createProgram (roots : List String) (old : Option (Program ω)) : Attempt ω (Program ω) := do
  let program ← setup.makeProgram roots old
  Attempt.raiseParked
  pure program

end Setup

namespace Step

variable {ω A α : Type}

/-- A computation of the host as a step. -/
def ofHost (step : HostM ω α) : Step ω A α :=
  ExceptT.lift fun build =>
    let (value, situation) := step build.situation
    (value, { build with situation })

/-- The outcome of a computation of the host, which does not end the step. -/
def outcome (attempt : Attempt ω α) : Step ω A (Outcome α) :=
  ofHost attempt.run

end Step

end CompanionBuild
