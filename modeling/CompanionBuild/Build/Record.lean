import CompanionBuild.Build.Basic

/-! # What a build leaves behind

The records of the earlier build with those of this one put over them, each by name.
-/

namespace CompanionBuild.Setup

variable {ω A : Type} (setup : Setup ω A) (build : Build ω A)

/-- The summaries known after the build, in the order of their names. -/
def summaries : List LibrarySummary :=
  (Table.ofList ((setup.previous.summaries ++ build.emitted.summaries).map fun summary =>
    (summary.name, summary))).map (·.2)

def emittedCompanions : Table Companion :=
  build.emitted.companions.foldl (fun table companion => table.put companion.name companion) setup.previous.companions

def emittedUnits : Table SourceUnit :=
  build.emitted.units.foldl (fun table u => table.put u.name u) setup.previous.units

/-- What the next build starts from. -/
def records : Records ω where
  program := build.program
  summaries := setup.summaries build
  companions := setup.emittedCompanions build
  units := setup.emittedUnits build

end CompanionBuild.Setup
