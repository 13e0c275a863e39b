import CompanionBuild.Build.Emit
import CompanionBuild.Proofs.Build.Step

/-! # What an emit leaves alone

An emit asks the host, writes files and keeps what it wrote. Of the build it changes the situation, in which only
lookups take place, the records of what was emitted, and the phase; these last two only together, and only when the
emit succeeds.
-/

namespace CompanionBuild

variable {ω A : Type} {R : Situation ω → Situation ω → Prop} [IsPreorder (Situation ω) R]

/-! ## Transforms -/

/-- A transform that keeps to a relation, whatever it is applied to. -/
def Transform.KeepsTo (R : Situation ω → Situation ω → Prop) (transform : Transform (Situation ω)) : Prop :=
  ∀ symbols u findings, Within R ((transform.apply symbols u).run.run findings)

namespace Transform

theorem keepsTo_ofMap (name : String) (f : SourceUnit → SourceUnit) :
    (ofMap name f : Transform (Situation ω)).KeepsTo R :=
  fun _ _ _ => .pure _

theorem keepsTo_decorators (settings : DecoratorLowering) :
    (settings.transform : Transform (Situation ω)).KeepsTo R :=
  fun _ _ _ situation => refl_of R situation

variable {host : Host ω}

omit [IsPreorder (Situation ω) R] in
theorem keepsTo_lift (admits : host.AdmitsDisk R) (transform : Transform ω) :
    (transform.lift : Transform (Situation ω)).KeepsTo R :=
  fun _ _ _ => .lift admits.world _

theorem keepsTo_inlining (admits : host.AdmitsDisk R) : (Resource.inlining host.resources).KeepsTo R :=
  fun _ u _ => .bind (.inlineUnit admits.resources_get u) fun _ => .pure _

omit [IsPreorder (Situation ω) R] in
theorem keepsTo_expressions (admits : host.AdmitsLookups R) :
    (Lowering.expressions Host.requestsFor : Transform (Situation ω)).KeepsTo R :=
  fun _ _ _ _ => admits.requests _ _

end Transform

namespace Setup

variable {setup : Setup ω A} (admits : setup.host.AdmitsLookups R) (program : Program ω) (companions : List Companion)
  (options : EmitOptions ω)

include admits

theorem keepsTo_before : ∀ transform ∈ (setup.plan program companions options).pipeline.before, transform.KeepsTo R := by
  intro transform member
  simp only [plan, Pipeline.ofOptions, List.mem_append, List.mem_singleton, List.mem_map] at member
  rcases member with ((((rfl | member) | member) | rfl) | ⟨custom, _, rfl⟩) | member
  · exact Transform.keepsTo_ofMap _ _
  · split at member
    · exact List.mem_singleton.mp member ▸ Transform.keepsTo_inlining admits.toAdmitsDisk
    · contradiction
  · split at member
    · contradiction
    · exact List.mem_singleton.mp member ▸ Transform.keepsTo_expressions admits
  · exact Transform.keepsTo_ofMap _ _
  · exact Transform.keepsTo_lift admits.toAdmitsDisk custom
  · split at member
    · exact List.mem_singleton.mp member ▸ Transform.keepsTo_decorators _
    · contradiction

omit [IsPreorder (Situation ω) R] in
theorem keepsTo_after : ∀ transform ∈ (setup.plan program companions options).pipeline.after, transform.KeepsTo R := by
  intro transform member
  obtain ⟨custom, _, rfl⟩ := List.mem_map.mp member
  exact Transform.keepsTo_lift admits.toAdmitsDisk custom

end Setup

/-! ## Emitting -/

/-- Emits under way whose situations are related. -/
def Emission.Between (R : Situation ω → Situation ω → Prop) (before after : Emission ω) : Prop :=
  R before.situation after.situation

instance : IsPreorder (Emission ω) (Emission.Between R) where
  refl emission := refl_of R emission.situation
  trans _ _ _ first second := trans_of R first second

namespace Emission

variable {α : Type}

omit [IsPreorder (Situation ω) R] in
theorem within_ofHost {step : HostM ω α} (within : Within R step) : Within (Between R) (ofHost step) :=
  fun emission => within emission.situation

omit [IsPreorder (Situation ω) R] in
theorem within_ofRouter (world : ∀ world situation, R situation { situation with world }) (step : RouterM ω α) :
    Within (Between R) (ofRouter step).run :=
  fun _ => world _ _

end Emission

namespace Setup

variable {setup : Setup ω A} (admits : setup.host.AdmitsLookups R) (program : Program ω) (companions : List Companion)
  (options : EmitOptions ω)

include admits

theorem within_emitTarget (target : Option String) :
    Within (Emission.Between R) ((setup.plan program companions options).emitTarget target).run := by
  refine .dialogue (fun _ _ => admits.world _ _) (fun q => ?_) _
  cases q with
  | transform stage symbols findings u =>
    cases stage with
    | before =>
      exact Emission.within_ofHost (.applyAll symbols
        (fun transform member => keepsTo_before admits program companions options transform member symbols) u findings)
    | after =>
      exact Emission.within_ofHost (.applyAll symbols
        (fun transform member => keepsTo_after admits program companions options transform member symbols) u findings)
  | write output => exact Emission.within_ofRouter admits.world _

theorem within_emitUnits : Within (Emission.Between R) (setup.plan program companions options).emitUnits.run := by
  have each (targets : List String) :
      Within (Emission.Between R) ((setup.plan program companions options).emitEach targets).run := by
    induction targets with
    | nil => exact .pure _
    | cons target rest ih =>
      exact .bindExcept (within_emitTarget admits program companions options (some target)) fun _ =>
        .bindExcept ih fun _ => .pure _
  unfold EmitPlan.emitUnits
  split
  · exact .bindExcept (each _) fun _ => .pure _
  · exact .bindExcept (within_emitTarget admits program companions options none) fun _ => .pure _

theorem within_emitRest (plan : EmitPlan ω) (mapper : OutputMapper) :
    Within (Emission.Between R) (plan.emitRest setup.host mapper).run := by
  have metadata : Within (Emission.Between R) (plan.described.forM (plan.passMetadata setup.host mapper)).run := by
    refine .forM (fun u => ?_) _
    refine .bindExcept (Emission.within_ofHost (admits.unitMetadata u)) fun found => ?_
    split
    · exact .pure _
    · exact Emission.within_ofRouter admits.world _
  have finished : Within (Emission.Between R) (plan.finished.forM (plan.passFinished mapper)).run :=
    .forM (fun _ => Emission.within_ofRouter admits.world _) _
  unfold EmitPlan.emitRest
  dsimp only
  split
  · refine .bindExcept finished fun _ => ?_
    split
    · exact metadata
    · exact .pure _
  · split
    · exact metadata
    · exact .pure _

theorem within_emitPlan (structural : List TemplateDiagnostic) (started : Nat) :
    Within (Emission.Between R) (setup.emitPlan (setup.plan program companions options) structural started).run := by
  refine .bindExcept (within_emitUnits admits program companions options) fun units => ?_
  refine .bindExcept .get fun emission => .bindExcept (.pure _) fun result => .bindExcept .get fun emission => ?_
  split
  · exact .pure _
  · refine .bindExcept (.pure _) fun mapper => .bindExcept (within_emitRest admits _ mapper) fun _ => ?_
    split
    · exact .bindExcept (.lift (fun _ _ => admits.world _ _) _) fun _ => .pure _
    · exact .pure _

theorem within_companionsForEmit (flags : EmitFlags) (analysis : Option A) :
    Within R (setup.companionsForEmit flags analysis).run := by
  unfold companionsForEmit
  split
  · exact .pure _
  · split
    · exact .throw _
    · refine .bindExcept (.map _ (admits.consult _)) fun outcome => ?_
      split
      · exact .pure _
      · exact .pure _
      · exact .throw _

end Setup

namespace Setup

variable (setup : Setup ω A) (program : Program ω) (companions : List Companion) (options : EmitOptions ω)

theorem looksUp_emitUnits :
    Within (Emission.Between (Alike Situation.standing)) (setup.plan program companions options).emitUnits.run :=
  within_emitUnits setup.host.looksUp program companions options

/-! ## The step -/

theorem emitAndRecord_on (plan : EmitPlan ω) (started : Nat) (build : Build ω A) :
    (setup.emitAndRecord plan started).on build =
      match (setup.emitPlan plan build.structural started).run.run ⟨build.situation, {}⟩ with
      | (.error error, emission) => (.error error, { build with situation := emission.situation })
      | (.ok result, emission) =>
        (.ok result, { build with
          situation := emission.situation
          emitted := ⟨emission.routed.summaries, plan.companions, emission.routed.units⟩
          phase := if build.phase = .errored then .errored else .emitted }) := by
  rw [emitAndRecord, Step.on_bind_get]
  rcases (setup.emitPlan plan build.structural started).run.run ⟨build.situation, {}⟩ with ⟨outcome, emission⟩
  cases outcome <;> rfl

theorem emitAndRecord_of_ok {plan : EmitPlan ω} {started : Nat} {build : Build ω A} {result : EmitResult}
    {emission : Emission ω}
    (ran : (setup.emitPlan plan build.structural started).run.run ⟨build.situation, {}⟩ = (.ok result, emission)) :
    (setup.emitAndRecord plan started).on build =
      (.ok result, { build with
        situation := emission.situation
        emitted := ⟨emission.routed.summaries, plan.companions, emission.routed.units⟩
        phase := if build.phase = .errored then .errored else .emitted }) := by
  rw [emitAndRecord_on, ran]

theorem emit_refused {build : Build ω A} {error : BuildError} (early : build.finalProgram .emit = .error error) :
    (setup.emit options).on build = (.error error, build) := by
  rw [emit, Step.on_bind_get, early]
  rfl

theorem emit_on {build : Build ω A} {program : Program ω} (final : build.finalProgram .emit = .ok program) :
    (setup.emit options).on build =
      let (started, timed) := (HostM.inWorld setup.clock).run build.situation
      if !options.flags.producesFiles then (.ok (.skipped []), { build with situation := timed })
      else
        match (setup.companionsForEmit options.flags build.analysis).run.run timed with
        | (.error error, situation) => (.error error, { build with situation })
        | (.ok (.error diagnostics), situation) => (.ok (.skipped diagnostics), { build with situation })
        | (.ok (.ok companions), situation) =>
          (setup.emitAndRecord (setup.plan program companions options) started).on { build with situation } := by
  rw [emit, Step.on_bind_get, final, Step.on_bind_ok, Step.on_bind_ofHost]
  rcases (HostM.inWorld setup.clock).run build.situation with ⟨started, timed⟩
  dsimp only
  split
  · rfl
  · rw [Step.on_bind_outcome]
    dsimp only
    rcases (setup.companionsForEmit options.flags build.analysis).run.run timed with ⟨outcome, situation⟩
    rcases outcome with error | diagnostics | companions <;> rfl

/-- An emit changes the situation by lookups and, if it succeeds, the records and the phase together. -/
theorem emit_cases {setup : Setup ω A} (admits : setup.host.AdmitsLookups R) (options : EmitOptions ω)
    (build : Build ω A) :
    ∃ situation, R build.situation situation ∧
      (((setup.emit options).on build).2 = { build with situation } ∨
        ∃ result emitted, (build.finalProgram .emit).isOk ∧ (setup.emit options).on build =
          (.ok result, { build with
            situation, emitted, phase := if build.phase = .errored then .errored else .emitted })) := by
  cases final : build.finalProgram .emit with
  | error error =>
    rw [setup.emit_refused options final]
    exact ⟨build.situation, refl_of R _, .inl rfl⟩
  | ok program =>
    rw [setup.emit_on options final]
    rcases clock : (HostM.inWorld setup.clock).run build.situation with ⟨started, timed⟩
    have clocked : R build.situation timed := (Within.inWorld admits.world setup.clock).of_run clock
    dsimp only
    split
    · exact ⟨timed, clocked, .inl rfl⟩
    · rcases ran : (setup.companionsForEmit options.flags build.analysis).run.run timed with ⟨outcome, situation⟩
      have within : R build.situation situation :=
        trans_of R clocked ((within_companionsForEmit admits options.flags build.analysis).of_run ran)
      rcases outcome with error | diagnostics | companions
      · exact ⟨situation, within, .inl rfl⟩
      · exact ⟨situation, within, .inl rfl⟩
      · dsimp only
        rw [emitAndRecord_on]
        dsimp only
        rcases emits : (setup.emitPlan (setup.plan program companions options) build.structural started).run.run
          ⟨situation, {}⟩ with ⟨outcome, emission⟩
        have kept : R build.situation emission.situation :=
          trans_of R within ((within_emitPlan admits program companions options build.structural started).of_run emits)
        cases outcome with
        | error error => exact ⟨emission.situation, kept, .inl rfl⟩
        | ok result => exact ⟨emission.situation, kept, .inr ⟨result, _, rfl, rfl⟩⟩

end Setup

end CompanionBuild
