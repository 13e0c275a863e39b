import CompanionBuild.Build.Phases
import CompanionBuild.Proofs.Build.Emission
import CompanionBuild.Proofs.Host.Unit

/-! # What the phases of a build do

Each phase is said once: an equation for a call in its phase, another for a call out of it. From these follows that
every phase keeps the build coherent, whatever the compiler and the analyzer do: what a build holds is told by its
phase. A phase that fails leaves a degraded build, for good.
-/

namespace CompanionBuild

variable {ω A : Type}

namespace Setup

/-! ## What the phases attempt -/

/-- A relation that the phases of a build keep to as long as none of them fails. -/
structure AdmitsPhases (setup : Setup ω A) (R : Situation ω → Situation ω → Prop) : Prop
    extends setup.host.AdmitsSources setup.analyzer.toGenerator R where
  updateCompanion : ∀ companion, Within R (setup.host.updateCompanion companion).run

section

variable {setup : Setup ω A} {R : Situation ω → Situation ω → Prop} [IsPreorder (Situation ω) R]

theorem within_rootCompanions (admits : setup.host.AdmitsLookups R) (roots : List String) :
    Within R (setup.rootCompanions roots) := by
  induction roots with
  | nil => exact .pure _
  | cons root rest ih =>
    refine .bind (admits.getsCompanions root) fun gets => ?_
    split
    · exact .bind (.inWorld admits.world _) fun _ => .bind ih fun _ => .pure _
    · exact .bind (.pure _) fun _ => .bind ih fun _ => .pure _

theorem within_sourcesAmong (admits : setup.host.AdmitsLookups R) (units : List SourceUnit) :
    Within R (setup.sourcesAmong units) := by
  induction units with
  | nil => exact .pure _
  | cons u rest ih => exact .bind (admits.isSource u.name) fun _ => .bind ih fun _ => .pure _

namespace AdmitsPhases

variable (admits : setup.AdmitsPhases R)

include admits

theorem makeProgram (roots : List String) (old : Option (Program ω)) : Within R (setup.makeProgram roots old) :=
  .dialogue admits.world admits.answerCompiler _

theorem takeParked : Within R (HostM.takeParked : HostM ω (Option BuildError)) :=
  .bind .caches fun _ => .bind (.modifyCaches fun _ => admits.parked _ _) fun _ => .pure _

theorem raiseParked : Within R (Attempt.raiseParked : Attempt ω Unit).run := by
  refine .bindExcept admits.takeParked fun parked => ?_
  split
  · exact .throw _
  · exact .pure _

theorem createProgram (roots : List String) (old : Option (Program ω)) : Within R (setup.createProgram roots old).run :=
  .bindExcept (admits.makeProgram roots old) fun _ => .bindExcept admits.raiseParked fun _ => .pure _

theorem createStub (old : Option (Program ω)) : Within R (setup.createStub old).run := by
  have rest (companions : List String) : Within R (do
      let roots := setup.stubRoots ++ companions
      let program ← setup.createProgram roots old
      let sources ← setup.sourcesAmong program.units
      pure ⟨program, roots, sources, (program.units.map (·.name)).filter isChecked⟩ : Attempt ω (Stub ω)).run :=
    .bindExcept (admits.createProgram _ _) fun program =>
      .bindExcept (within_sourcesAmong admits.toAdmitsLookups program.units) fun _ => .pure _
  unfold Setup.createStub
  dsimp only
  split
  · exact .bindExcept (within_rootCompanions admits.toAdmitsLookups _) rest
  · exact .bindExcept (.pure _) rest

theorem analysisOf (mode : AnalysisMode) (stub : Option (Stub ω)) : Within R (setup.analysisOf mode stub).run := by
  unfold Setup.analysisOf
  split
  · exact .throw _
  · exact .bindExcept (admits.consult _) fun _ => .bindExcept admits.raiseParked fun _ => .pure _

theorem replaceStub (file : String) : Within R (setup.replaceStub file).run := by
  unfold Setup.replaceStub
  split
  · refine .bindExcept (admits.generatable file) fun found => ?_
    split
    · refine .bindExcept (admits.consult _) fun made => ?_
      split
      · exact .bindExcept (admits.updateCompanion _) fun _ => .pure _
      · exact .pure _
    · exact .pure _
  · exact .pure _

theorem createTyped (stub : Stub ω) : Within R (setup.createTyped stub).run := by
  have replaces : Within R (stub.program.units.forM fun u => setup.replaceStub u.name).run := by
    refine .forM (fun u => ?_) _
    exact admits.replaceStub u.name
  refine .bindExcept replaces fun _ => .bindExcept (admits.createProgram _ _) fun program => ?_
  split
  · exact .pure _
  · exact .throw _

end AdmitsPhases

end

variable (setup : Setup ω A)

/-- No phase degrades the build unless it fails. -/
theorem keepsDegree : setup.AdmitsPhases (Alike Situation.isDegraded) where
  toAdmitsSources := setup.host.keepsDegree.sources _
  updateCompanion := setup.host.keepsDegree.updateCompanion

theorem clears_createProgram (roots : List String) (old : Option (Program ω)) :
    (setup.createProgram roots old).Clears :=
  .bind fun _ => .bind_lookups .raiseParked fun _ => .pure _

theorem clears_createStub (old : Option (Program ω)) : (setup.createStub old).Clears := by
  have rest (companions : List String) : (do
      let roots := setup.stubRoots ++ companions
      let program ← setup.createProgram roots old
      let sources ← setup.sourcesAmong program.units
      pure ⟨program, roots, sources, (program.units.map (·.name)).filter isChecked⟩ : Attempt ω (Stub ω)).Clears :=
    Attempt.Clears.bind_lookups (setup.clears_createProgram _ _) fun program =>
      .bindExcept (within_sourcesAmong setup.host.looksUp program.units) fun _ => .pure _
  unfold createStub
  dsimp only
  split <;> exact .bind rest

theorem clears_analysisOf (mode : AnalysisMode) (stub : Option (Stub ω)) : (setup.analysisOf mode stub).Clears := by
  unfold analysisOf
  split
  · intro situation value after success
    cases success
  · exact .bind fun _ => .bind_lookups .raiseParked fun _ => .pure _

/-- The typed program takes over the whole structure of the stub program, and no error stays parked. -/
theorem createTyped_ok {stub : Stub ω} {situation after : Situation ω} {program : Program ω}
    (success : (setup.createTyped stub).run.run situation = (.ok program, after)) :
    program.reuse = .completely ∧ after.caches.parked = none := by
  obtain ⟨_, replaced, _, success⟩ := run_bind_ok success
  obtain ⟨made, middle, ran, last⟩ := run_bind_ok success
  split at last
  case isTrue whole =>
    cases last
    exact ⟨whole, setup.clears_createProgram _ _ replaced _ _ ran⟩
  case isFalse => cases last

/-! ## Phases -/

/-- The build with a program without companions in place. -/
def fallen (build : Build ω A) : Build ω A :=
  let made := (setup.makeProgram setup.roots none).run
    { build.situation with caches := build.situation.caches.degrade }
  { build with
    phase := .errored
    oldProgram := none
    stub := none
    program := some made.1
    analysis := some setup.analyzer.nothing
    situation := { made.2 with caches := { made.2.caches with parked := none } } }

theorem fallBack_on (error : BuildError) (build : Build ω A) :
    (setup.fallBack error).on build =
      match error with
      | .structural error =>
        (.ok (), { setup.fallen build with
          structural := build.structural ++
            error.diagnostics ((setup.fallen build).program.elim (fun _ => none) Program.unit?) })
      | other => (.error other, setup.fallen build) := by
  cases error <;> rfl

theorem expect_on_bind {α : Type} {expected : Phase} {action : BuildAction} {build : Build ω A} {next : Step ω A α}
    (ready : build.phase = expected) : (expect expected action >>= fun _ => next).on build = next.on build := by
  rw [Step.on_bind, expect, Step.on_bind_get, if_pos ready]
  rfl

theorem expect_on_bind_of_ne {α : Type} {expected : Phase} {action : BuildAction} {build : Build ω A}
    {next : Step ω A α} (early : build.phase ≠ expected) :
    (expect expected action >>= fun _ => next).on build =
      (.error (.usage (.wrongPhase action build.phase expected)), build) := by
  rw [Step.on_bind, expect, Step.on_bind_get, if_neg early]
  rfl

theorem buildStub_on {build : Build ω A} (ready : build.phase = .uninitialized) :
    setup.buildStub.on build =
      match (setup.createStub build.oldProgram).run.run build.situation with
      | (.ok stub, situation) => (.ok (), { build with situation, stub := some stub, phase := .stubBuilt })
      | (.error error, situation) => (setup.fallBack error).on { build with situation } := by
  rw [buildStub, expect_on_bind ready, Step.on_bind_get, Step.on_bind_outcome]
  rcases (setup.createStub build.oldProgram).run.run build.situation with ⟨outcome, situation⟩
  cases outcome <;> rfl

theorem analyze_on {build : Build ω A} {mode : AnalysisMode} (fresh : build.mode = none)
    (ready : build.phase = .stubBuilt) :
    (setup.analyze mode).on build =
      match (setup.analysisOf mode build.stub).run.run build.situation with
      | (.ok analysis, situation) =>
        (.ok (), { build with situation, mode := some mode, analysis := some analysis, phase := .analyzed })
      | (.error error, situation) => (setup.fallBack error).on { build with situation, mode := some mode } := by
  have begins : (beginAnalysis mode).on build = (.ok (), { build with mode := some mode }) := by
    rw [beginAnalysis, Step.on_bind_get, fresh]
    dsimp only
    rw [expect_on_bind ready]
    rfl
  rw [analyze, Step.on_bind, begins]
  dsimp only
  rw [Step.on_bind_get, Step.on_bind_outcome]
  dsimp only
  rcases (setup.analysisOf mode build.stub).run.run build.situation with ⟨outcome, situation⟩
  cases outcome <;> rfl

theorem buildTyped_on {build : Build ω A} {stub : Stub ω} (ready : build.phase = .analyzed)
    (present : build.stub = some stub) :
    setup.buildTyped.on build =
      match (setup.createTyped stub).run.run build.situation with
      | (.ok program, situation) =>
        (.ok (), { build with
          situation, stub := none, oldProgram := none, program := some program, phase := .finalBuilt })
      | (.error error, situation) =>
        (setup.fallBack error).on { build with situation, stub := none, oldProgram := none } := by
  rw [buildTyped, expect_on_bind ready, Step.on_bind_get, present]
  dsimp only
  rw [Step.on_bind_modify, Step.on_bind_outcome, Step.on_bind_modify]
  dsimp only
  rcases (setup.createTyped stub).run.run build.situation with ⟨outcome, situation⟩
  cases outcome <;> rfl

theorem load_on (mode : AnalysisMode) (build : Build ω A) :
    (setup.load mode).on build =
      match setup.buildStub.on build with
      | (.error error, first) => (.error error, first)
      | (.ok (), first) =>
        match if first.phase = .stubBuilt then (setup.analyze mode).on first else (.ok (), first) with
        | (.error error, second) => (.error error, second)
        | (.ok (), second) => if second.phase = .analyzed then setup.buildTyped.on second else (.ok (), second) := by
  have last (second : Build ω A) :
      (do if (← get).phase = .analyzed then setup.buildTyped : Step ω A Unit).on second =
        if second.phase = .analyzed then setup.buildTyped.on second else (.ok (), second) := by
    rw [Step.on_bind_get]
    split <;> rfl
  rw [load, Step.on_bind]
  rcases setup.buildStub.on build with ⟨_ | _, first⟩
  · rfl
  · dsimp only
    rw [Step.on_bind_get]
    split
    · rw [Step.on_bind]
      rcases (setup.analyze mode).on first with ⟨_ | _, second⟩
      · rfl
      · exact last second
    · exact last first

/-! ## Out of order -/

theorem buildStub_refused {build : Build ω A} (late : build.phase ≠ .uninitialized) :
    setup.buildStub.on build = (.error (.usage (.wrongPhase .buildStub build.phase .uninitialized)), build) :=
  expect_on_bind_of_ne late

theorem load_refused (mode : AnalysisMode) {build : Build ω A} (late : build.phase ≠ .uninitialized) :
    (setup.load mode).on build = (.error (.usage (.wrongPhase .buildStub build.phase .uninitialized)), build) := by
  rw [load_on, setup.buildStub_refused late]

/-- A second analysis is refused, whichever way the first went. -/
theorem analyze_again (mode : AnalysisMode) {build : Build ω A} {before : AnalysisMode}
    (begun : build.mode = some before) :
    (setup.analyze mode).on build =
      (.error (.usage (if before = mode then .loadedTwice else .loadedBothWays)), build) := by
  rw [analyze, Step.on_bind, beginAnalysis, Step.on_bind_get, begun]
  rfl

theorem analyze_refused (mode : AnalysisMode) {build : Build ω A} (fresh : build.mode = none)
    (other : build.phase ≠ .stubBuilt) :
    (setup.analyze mode).on build = (.error (.usage (.wrongPhase .analyze build.phase .stubBuilt)), build) := by
  rw [analyze, Step.on_bind, beginAnalysis, Step.on_bind_get, fresh]
  dsimp only
  rw [expect_on_bind_of_ne other]

theorem buildTyped_refused {build : Build ω A} (other : build.phase ≠ .analyzed) :
    setup.buildTyped.on build = (.error (.usage (.wrongPhase .buildTyped build.phase .analyzed)), build) :=
  expect_on_bind_of_ne other

end Setup

/-! ## Coherence -/

/-- What a build holds in each phase. -/
structure Build.Coherent (build : Build ω A) : Prop where
  program : build.program.isSome ↔ build.phase ∈ [.finalBuilt, .emitted, .errored]
  stub : build.stub.isSome ↔ build.phase ∈ [.stubBuilt, .analyzed]
  analysis : build.analysis.isSome ↔ build.phase ∈ [.analyzed, .finalBuilt, .emitted, .errored]
  degraded : build.situation.caches.isDegraded ↔ build.phase = .errored
  /-- A typed program has taken over the whole structure of the stub program. -/
  reused : build.phase ∈ [.finalBuilt, .emitted] →
    ∃ program, build.program = some program ∧ program.reuse = .completely
  parked : build.situation.caches.parked = none
  /-- No analysis has begun before there is a stub program, and none is under way between two calls. -/
  mode : build.mode.isSome → build.phase ∉ [.uninitialized, .stubBuilt]

/-- What a call, or a change of the world, never undoes. -/
structure Build.Advances (before after : Build ω A) : Prop where
  coherent : before.Coherent → after.Coherent
  errored : before.phase = .errored → after.phase = .errored
  mode : ∀ mode, before.mode = some mode → after.mode = some mode

instance : IsPreorder (Build ω A) Build.Advances where
  refl _ := ⟨id, id, fun _ => id⟩
  trans _ _ _ first second :=
    ⟨second.coherent ∘ first.coherent, second.errored ∘ first.errored,
      fun mode begun => second.mode mode (first.mode mode begun)⟩

namespace Setup

variable (setup : Setup ω A)

theorem coherent_start (world : ω) : (setup.start world).Coherent := by
  constructor <;> simp [start, Caches.ofSummaries]

theorem isDegraded_fallen (build : Build ω A) : (setup.fallen build).situation.caches.isDegraded = true :=
  setup.keepsDegree.makeProgram setup.roots none { build.situation with caches := build.situation.caches.degrade }

theorem coherent_fallBack (error : BuildError) (build : Build ω A) :
    ((setup.fallBack error).on build).2.Coherent := by
  have degraded := setup.isDegraded_fallen build
  rw [fallBack_on]
  split <;> constructor <;> simp_all [fallen]

theorem fallBack_phase (error : BuildError) (build : Build ω A) :
    ((setup.fallBack error).on build).2.phase = .errored := by
  rw [fallBack_on]
  split <;> rfl

theorem advances_fallBack (error : BuildError) {before build : Build ω A}
    (kept : ∀ mode, before.mode = some mode → build.mode = some mode) :
    before.Advances ((setup.fallBack error).on build).2 := by
  have mode : ((setup.fallBack error).on build).2.mode = build.mode := by
    rw [fallBack_on]
    split <;> rfl
  exact ⟨fun _ => setup.coherent_fallBack error build, fun _ => setup.fallBack_phase error build,
    fun earlier begun => mode.trans (kept earlier begun)⟩

theorem advances_buildStub : Within Build.Advances setup.buildStub.run := by
  intro build
  change build.Advances (setup.buildStub.on build).2
  by_cases ready : build.phase = .uninitialized
  · rw [setup.buildStub_on ready]
    rcases ran : (setup.createStub build.oldProgram).run.run build.situation with ⟨outcome, situation⟩
    cases outcome with
    | error error => exact setup.advances_fallBack error fun _ begun => begun
    | ok stub =>
      have degree : situation.caches.isDegraded = build.situation.caches.isDegraded :=
        (setup.keepsDegree.createStub _).of_run ran
      have parked := setup.clears_createStub _ _ _ _ ran
      refine ⟨fun coherent => ?_, by simp [ready], fun _ begun => begun⟩
      obtain ⟨program, stub, analysis, degraded, reused, _, mode⟩ := coherent
      constructor <;> simp_all
  · rw [setup.buildStub_refused ready]
    exact refl_of Build.Advances build

theorem advances_analyze (mode : AnalysisMode) : Within Build.Advances (setup.analyze mode).run := by
  intro build
  change build.Advances ((setup.analyze mode).on build).2
  cases fresh : build.mode with
  | some before =>
    rw [setup.analyze_again mode fresh]
    exact refl_of Build.Advances build
  | none =>
    by_cases ready : build.phase = .stubBuilt
    · rw [setup.analyze_on fresh ready]
      rcases ran : (setup.analysisOf mode build.stub).run.run build.situation with ⟨outcome, situation⟩
      cases outcome with
      | error error => exact setup.advances_fallBack error (by simp [fresh])
      | ok analysis =>
        have degree : situation.caches.isDegraded = build.situation.caches.isDegraded :=
          (setup.keepsDegree.analysisOf _ _).of_run ran
        have parked := setup.clears_analysisOf _ _ _ _ _ ran
        refine ⟨fun coherent => ?_, by simp [ready], by simp [fresh]⟩
        obtain ⟨program, stub, analysis, degraded, reused, _, mode⟩ := coherent
        constructor <;> simp_all
    · rw [setup.analyze_refused mode fresh ready]
      exact refl_of Build.Advances build

theorem advances_buildTyped : Within Build.Advances setup.buildTyped.run := by
  intro build
  change build.Advances (setup.buildTyped.on build).2
  by_cases ready : build.phase = .analyzed
  · cases present : build.stub with
    | none =>
      rw [buildTyped, expect_on_bind ready, Step.on_bind_get, present]
      exact refl_of Build.Advances build
    | some stub =>
      rw [setup.buildTyped_on ready present]
      rcases ran : (setup.createTyped stub).run.run build.situation with ⟨outcome, situation⟩
      cases outcome with
      | error error => exact setup.advances_fallBack error fun _ begun => begun
      | ok program =>
        have degree : situation.caches.isDegraded = build.situation.caches.isDegraded :=
          (setup.keepsDegree.createTyped _).of_run ran
        obtain ⟨whole, parked⟩ := setup.createTyped_ok ran
        refine ⟨fun coherent => ?_, by simp [ready], fun _ begun => begun⟩
        obtain ⟨program, stub, analysis, degraded, reused, _, mode⟩ := coherent
        constructor <;> simp_all
  · rw [setup.buildTyped_refused ready]
    exact refl_of Build.Advances build

theorem advances_load (mode : AnalysisMode) : Within Build.Advances (setup.load mode).run := by
  refine .bindExcept setup.advances_buildStub fun _ => .bindExcept .get fun first => ?_
  have last : Within Build.Advances (do if (← get).phase = .analyzed then setup.buildTyped : Step ω A Unit).run := by
    refine .bindExcept .get fun second => ?_
    split
    · exact setup.advances_buildTyped
    · exact .pure _
  dsimp only
  split
  · exact .bindExcept (setup.advances_analyze mode) fun _ => last
  · exact last

/-- A program that is final is one of a build in a late phase. -/
theorem finalProgram_isOk {build : Build ω A} {action : BuildAction} :
    (build.finalProgram action).isOk ↔ build.program.isSome ∧ build.phase ∈ [.finalBuilt, .emitted, .errored] := by
  unfold Build.finalProgram
  cases build.phase <;> cases build.program <;> simp [Except.isOk, Except.toBool]

theorem advances_emit (options : EmitOptions ω) : Within Build.Advances (setup.emit options).run := by
  intro build
  change build.Advances ((setup.emit options).on build).2
  obtain ⟨situation, standing, effect⟩ := emit_cases setup.host.looksUp options build
  have degree : situation.caches.isDegraded = build.situation.caches.isDegraded :=
    (congrArg Caches.isDegraded standing : _)
  have parked : situation.caches.parked = build.situation.caches.parked := (congrArg Caches.parked standing : _)
  rcases effect with same | ⟨result, emitted, final, effect⟩
  · rw [same]
    refine ⟨fun coherent => ?_, id, fun _ begun => begun⟩
    obtain ⟨program, stub, analysis, degraded, reused, _, mode⟩ := coherent
    constructor <;> simp_all
  · rw [effect]
    have late := (finalProgram_isOk.mp final).2
    refine ⟨fun coherent => ?_, fun errored => by simp [errored], fun _ begun => begun⟩
    obtain ⟨program, stub, analysis, degraded, reused, _, mode⟩ := coherent
    simp only [List.mem_cons, List.not_mem_nil, or_false] at late
    rcases late with late | late | late <;> constructor <;> simp_all

end Setup

end CompanionBuild
