import CompanionBuild.Proofs.Host.Unit

/-! # Histories of a build

A build is a history of acts: the analyzer and the compiler ask the host, companions are taken in, and at some point the
build may be degraded. What every act keeps to, every history keeps to.
-/

namespace CompanionBuild

/-- What may happen to the host of a build. -/
inductive HostAct (ω : Type) where
  /-- An analyzer does its work and asks. -/
  | analyze (dialogue : HostDialogue ω Unit)
  /-- The compiler does its work and asks. -/
  | compile (generator : Generator ω) (dialogue : CompilerDialogue ω Unit)
  | unit (generator : Generator ω) (file : String)
  | metadata (u : SourceUnit)
  | isOnDisk (file : String)
  | generatable (file : String)
  | getsCompanions (file : String)
  | addCompanion (companion : Companion) (references : Names)
  | updateCompanion (companion : Companion)
  | takeParked
  | degrade

namespace HostAct

variable {ω : Type} (host : Host ω)

/-- The host does what is asked of it; the answer is of no account. -/
def run : HostAct ω → HostM ω Unit
  | analyze dialogue => host.consult dialogue
  | compile generator dialogue => dialogue.run (host.answerCompiler generator)
  | unit generator file => do let _ ← (host.sourceUnit generator file).run
  | metadata u => do let _ ← (host.unitMetadata u).run
  | isOnDisk file => do let _ ← host.exists? file
  | generatable file => do let _ ← host.generatable file
  | getsCompanions file => do let _ ← host.getsCompanions file
  | addCompanion companion references => do let _ ← (host.addCompanion companion references).run
  | updateCompanion companion => do let _ ← (host.updateCompanion companion).run
  | takeParked => do let _ ← HostM.takeParked
  | degrade => HostM.modifyCaches Caches.degrade

/-- The situation after some acts. -/
def situationAfter (acts : List (HostAct ω)) (situation : Situation ω) : Situation ω :=
  acts.foldl (fun situation act => ((act.run host).run situation).2) situation

/-- What every act keeps, a history keeps. -/
theorem situationAfter_induction {P : Situation ω → Prop}
    (step : ∀ (act : HostAct ω) situation, P situation → P ((act.run host).run situation).2) (acts : List (HostAct ω))
    {situation : Situation ω} (start : P situation) : P (situationAfter host acts situation) := by
  induction acts generalizing situation with
  | nil => exact start
  | cons act rest ih => exact ih (step act situation start)

/-- The host is only asked; what it takes in, it takes in by itself. -/
def IsQuery : HostAct ω → Prop
  | addCompanion _ _ | updateCompanion _ | degrade => False
  | _ => True

/-- What makes companions during an act. -/
def generator? : HostAct ω → Option (Generator ω)
  | compile generator _ | unit generator _ => some generator
  | _ => none

variable {host} {R : Situation ω → Situation ω → Prop} [IsPreorder (Situation ω) R]

theorem IsQuery.within {act : HostAct ω} (query : act.IsQuery) (lookups : host.AdmitsLookups R)
    (sources : ∀ generator ∈ act.generator?, host.AdmitsSources generator R)
    (parked : ∀ parked situation, R situation { situation with caches := { situation.caches with parked } }) :
    Within R (act.run host) := by
  cases act with
  | analyze dialogue => exact lookups.consult dialogue
  | compile generator dialogue => exact .dialogue lookups.world (sources generator rfl).answerCompiler dialogue
  | unit generator file => exact .bind ((sources generator rfl).sourceUnit file) fun _ => .pure _
  | metadata u => exact .bind (lookups.unitMetadata u) fun _ => .pure _
  | isOnDisk file => exact .bind (lookups.exists? file) fun _ => .pure _
  | generatable file => exact .bind (lookups.generatable file) fun _ => .pure _
  | getsCompanions file => exact .bind (lookups.getsCompanions file) fun _ => .pure _
  | takeParked =>
    refine .bind (.bind .caches fun found => ?_) fun _ => .pure _
    exact .bind (.modifyCaches fun _ => parked _ _) fun _ => .pure _
  | addCompanion companion references => exact query.elim
  | updateCompanion companion => exact query.elim
  | degrade => exact query.elim

/-- What holds whatever is given out and taken in holds of every act that does not degrade the build. -/
theorem within_of_sources (intake : host.AdmitsIntake R) (sources : ∀ generator, host.AdmitsSources generator R)
    (parked : ∀ parked situation, R situation { situation with caches := { situation.caches with parked } })
    {act : HostAct ω} (intact : act ≠ degrade) : Within R (act.run host) := by
  cases act
  case addCompanion companion references => exact .bind (intake.addCompanion companion references) fun _ => .pure _
  case updateCompanion companion => exact .bind (intake.updateCompanion companion) fun _ => .pure _
  case degrade => exact (intact rfl).elim
  all_goals exact IsQuery.within trivial intake.toAdmitsLookups (fun generator _ => sources generator) parked

theorem within_of_units (admits : host.AdmitsUnits R) {act : HostAct ω} (intact : act ≠ degrade) :
    Within R (act.run host) :=
  within_of_sources admits.intake admits.sources admits.parked intact

/-- What is kept by whatever is given out and taken in, and by degrading the build, a history keeps. -/
theorem situationAfter_of_units (admits : host.AdmitsUnits R) {P : Situation ω → Prop}
    (keeps : ∀ before after, R before after → P before → P after)
    (degrades : ∀ situation, P situation → P { situation with caches := situation.caches.degrade })
    (acts : List (HostAct ω)) {situation : Situation ω} (start : P situation) : P (situationAfter host acts situation) := by
  refine situationAfter_induction host (fun act situation before => ?_) acts start
  by_cases intact : act = degrade
  · subst intact
    exact degrades situation before
  · exact keeps _ _ (within_of_units admits intact situation) before

end HostAct

end CompanionBuild
