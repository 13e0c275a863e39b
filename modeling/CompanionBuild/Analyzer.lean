import CompanionBuild.Host.Unit

/-! # The analyzer

The analyzer makes a model of the sources, of a type `A` of its own, and the companions that go with it. The build only
puts its calls in order and keeps what comes back.
-/

namespace CompanionBuild

/-- Whether an analysis waits for resources that come later. -/
inductive AnalysisMode where
  | sync
  | async
deriving DecidableEq, Repr

structure Analyzer (ω A : Type) extends Generator ω where
  /-- The metadata of a unit, if it has any. -/
  collect : SourceUnit → StateM ω (Option Json)
  /-- The analysis of the sources, given also the files that can be type-checked. -/
  analyze : AnalysisMode → List String → List String → HostDialogue ω (Outcome A)
  /-- The analysis of nothing. -/
  nothing : A
  /-- A companion with enough in it to check the real one against, made for a unit; none where there is no need. -/
  typeCheckStub : String → String → HostDialogue ω (Outcome (Option Companion))
  /-- The companions in full. -/
  implementations : A → HostDialogue ω (Outcome (List Companion))

end CompanionBuild
