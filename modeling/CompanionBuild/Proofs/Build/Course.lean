import CompanionBuild.Proofs.Build.Calls
import CompanionBuild.Proofs.Host.History

/-! # The course of a build

Whatever calls are made on a build and whatever its host is asked between them, the situation keeps to what the phases
keep to, and to what a degraded build keeps.
-/

namespace CompanionBuild

variable {ω A : Type} {R : Situation ω → Situation ω → Prop} [IsPreorder (Situation ω) R]

/-- Builds whose situations are related. -/
def Build.Between (R : Situation ω → Situation ω → Prop) (before after : Build ω A) : Prop :=
  R before.situation after.situation

instance : IsPreorder (Build ω A) (Build.Between R) where
  refl build := refl_of R build.situation
  trans _ _ _ first second := trans_of R first second

omit [IsPreorder (Situation ω) R] in
theorem Step.within_ofHost {α : Type} {step : HostM ω α} (within : Within R step) :
    Within (Build.Between R) (ofHost step : Step ω A α).run :=
  fun build => within build.situation

omit [IsPreorder (Situation ω) R] in
theorem Step.within_outcome {α : Type} {attempt : Attempt ω α} (within : Within R attempt.run) :
    Within (Build.Between R) (outcome attempt : Step ω A (Outcome α)).run :=
  within_ofHost within

/-- A change to a build that leaves its situation alone. -/
theorem Step.within_modify {f : Build ω A → Build ω A} (same : ∀ build, (f build).situation = build.situation) :
    Within (Build.Between R) (modify f : Step ω A Unit).run := by
  intro build
  change R build.situation (f build).situation
  rw [same]
  exact refl_of R build.situation

namespace Setup

variable {setup : Setup ω A}

omit [IsPreorder (Situation ω) R] in
theorem AdmitsPhases.mono {S : Situation ω → Situation ω → Prop} (admits : setup.AdmitsPhases R)
    (weaker : ∀ before after, R before after → S before after) : setup.AdmitsPhases S where
  toAdmitsSources := admits.toAdmitsSources.mono weaker
  updateCompanion companion := (admits.updateCompanion companion).mono weaker

section

variable (admits : setup.AdmitsPhases R)
  (degrade : ∀ situation, R situation { situation with caches := situation.caches.degrade })

include admits degrade

theorem within_fallBack (error : BuildError) : Within (Build.Between R) (setup.fallBack error).run := by
  have installs : Within (Build.Between R) setup.installFallback.run := by
    refine .bindExcept (.modify fun build => degrade build.situation) fun _ => ?_
    refine .bindExcept (Step.within_ofHost (admits.makeProgram _ _)) fun program => ?_
    exact .bindExcept (Step.within_ofHost admits.takeParked) fun _ => Step.within_modify fun _ => rfl
  refine .bindExcept installs fun _ => ?_
  split
  · exact Step.within_modify fun _ => rfl
  · exact .throw _

omit admits degrade in
theorem within_expect (expected : Phase) (action : BuildAction) :
    Within (Build.Between R) (expect expected action : Step ω A Unit).run := by
  refine .bindExcept .get fun build => ?_
  dsimp only
  split
  · exact .pure _
  · exact .throw _

theorem within_buildStub : Within (Build.Between R) setup.buildStub.run := by
  refine .bindExcept (within_expect _ _) fun _ => .bindExcept .get fun build => ?_
  refine .bindExcept (Step.within_outcome (admits.createStub _)) fun outcome => ?_
  split
  · exact Step.within_modify fun _ => rfl
  · exact within_fallBack admits degrade _

theorem within_analyze (mode : AnalysisMode) : Within (Build.Between R) (setup.analyze mode).run := by
  have begins : Within (Build.Between R) (beginAnalysis mode : Step ω A Unit).run := by
    refine .bindExcept .get fun build => ?_
    split
    · exact .throw _
    · exact .bindExcept (within_expect _ _) fun _ => Step.within_modify fun _ => rfl
  refine .bindExcept begins fun _ => .bindExcept .get fun build => ?_
  refine .bindExcept (Step.within_outcome (admits.analysisOf _ _)) fun outcome => ?_
  split
  · exact Step.within_modify fun _ => rfl
  · exact within_fallBack admits degrade _

theorem within_buildTyped : Within (Build.Between R) setup.buildTyped.run := by
  refine .bindExcept (within_expect _ _) fun _ => .bindExcept .get fun build => ?_
  split
  · exact .throw _
  · refine .bindExcept (Step.within_modify fun _ => rfl) fun _ => ?_
    refine .bindExcept (Step.within_outcome (admits.createTyped _)) fun outcome => ?_
    refine .bindExcept (Step.within_modify fun _ => rfl) fun _ => ?_
    split
    · exact Step.within_modify fun _ => rfl
    · exact within_fallBack admits degrade _

theorem within_load (mode : AnalysisMode) : Within (Build.Between R) (setup.load mode).run := by
  have last : Within (Build.Between R) (do if (← get).phase = .analyzed then setup.buildTyped : Step ω A Unit).run := by
    refine .bindExcept .get fun build => ?_
    split
    · exact within_buildTyped admits degrade
    · exact .pure _
  refine .bindExcept (within_buildStub admits degrade) fun _ => .bindExcept .get fun build => ?_
  dsimp only
  split
  · exact .bindExcept (within_analyze admits degrade mode) fun _ => last
  · exact last

omit degrade in
theorem within_emit (options : EmitOptions ω) : Within (Build.Between R) (setup.emit options).run := by
  intro build
  change R build.situation ((setup.emit options).on build).2.situation
  obtain ⟨situation, kept, same | ⟨result, emitted, -, effect⟩⟩ := emit_cases admits.toAdmitsLookups options build
  · rw [same]
    exact kept
  · rw [effect]
    exact kept

theorem within_perform (call : Call ω) : Within (Build.Between R) (setup.perform call).run := by
  cases call with
  | buildStub => exact .bindExcept (within_buildStub admits degrade) fun _ => .pure _
  | analyze mode => exact .bindExcept (within_analyze admits degrade mode) fun _ => .pure _
  | buildTyped => exact .bindExcept (within_buildTyped admits degrade) fun _ => .pure _
  | load mode => exact .bindExcept (within_load admits degrade mode) fun _ => .pure _
  | emit options => exact .bindExcept (within_emit admits options) fun _ => .pure _
  | ask query => exact .bindExcept .get fun _ => .pure _

end

end Setup

/-! ## Courses -/

/-- What may happen to a build and its host. -/
inductive Occurrence (ω : Type) where
  | event (event : Event ω)
  | act (act : HostAct ω)

/-- A build with its setup, from its beginning to some point. -/
structure Course (ω A : Type) where
  setup : Setup ω A
  /-- The world at the beginning. -/
  world : ω
  occurrences : List (Occurrence ω)

/-- The build after something has happened. -/
def Setup.occur (setup : Setup ω A) (build : Build ω A) : Occurrence ω → Build ω A
  | .event event => setup.follow [event] build
  | .act act => { build with situation := ((act.run setup.host).run build.situation).2 }

namespace Course

/-- The build at the end of the course. -/
def build (course : Course ω A) : Build ω A :=
  course.occurrences.foldl course.setup.occur (course.setup.start course.world)

/-- A property of situations that holds at the beginning and that nothing takes away holds at the end. -/
theorem situation_induction {P : Situation ω → Prop} (course : Course ω A)
    (phases : course.setup.AdmitsPhases (Preserving P))
    (acts : ∀ (act : HostAct ω) situation, P situation → P ((act.run course.setup.host).run situation).2)
    (start : P ⟨course.world, .ofSummaries course.setup.previous.summaries⟩) : P course.build.situation := by
  have steps (build : Build ω A) (occurrence : Occurrence ω) (before : P build.situation) :
      P (course.setup.occur build occurrence).situation := by
    cases occurrence with
    | act act => exact acts act build.situation before
    | event event =>
      cases event with
      | call call => exact Setup.within_perform phases (fun situation => acts .degrade situation) call build before
      | change f => exact phases.world (f build.situation.world) build.situation before
  have begins : P (course.setup.start course.world).situation := start
  unfold build
  generalize course.setup.start course.world = build at begins
  generalize course.occurrences = occurrences
  induction occurrences generalizing build with
  | nil => exact begins
  | cons occurrence rest ih => exact ih _ (steps build occurrence begins)

end Course

end CompanionBuild
