import CompanionBuild.Proofs.Build.Phases

/-! # Calls on a build in any order

A build takes calls in any order, and between them the world may change. Along every such run the build stays coherent;
a call out of its place is refused and changes nothing; and a phase that fails puts a program without companions in
place, from which there is no way back.
-/

namespace CompanionBuild

variable {ω A : Type}

/-- A question about the diagnostics of a build. -/
inductive DiagnosticQuery where
  | options
  | syntactic (file : Option String) (isCancelled : Bool)
  | structural
  | semantic (file : Option String) (isCancelled : Bool)
  | templateSemantic (isCancelled : Bool)

/-- What a build can be called for. -/
inductive Call (ω : Type) where
  | buildStub
  | analyze (mode : AnalysisMode)
  | buildTyped
  | load (mode : AnalysisMode)
  | emit (options : EmitOptions ω)
  | ask (query : DiagnosticQuery)

/-- What a successful call answers. -/
inductive Answer where
  | done
  | emitted (result : EmitResult)
  | diagnostics (found : List Diagnostic)
  | templateDiagnostics (found : List TemplateDiagnostic)

/-- The call has its place in the present phase of the build. -/
def Call.InOrder (build : Build ω A) : Call ω → Prop
  | .buildStub | .load _ => build.phase = .uninitialized
  | .analyze _ => build.phase = .stubBuilt ∧ build.mode = none
  | .buildTyped => build.phase = .analyzed
  | .ask .options => True
  | .emit _ | .ask _ => build.phase ∈ [.finalBuilt, .emitted, .errored]

/-- The phase that a call is to reach. -/
def Call.target? : Call ω → Option Phase
  | .buildStub => some .stubBuilt
  | .analyze _ => some .analyzed
  | .buildTyped | .load _ => some .finalBuilt
  | .emit _ | .ask _ => none

/-- What may happen to a build: a call, or a change of the world around it. -/
inductive Event (ω : Type) where
  | call (call : Call ω)
  | change (f : ω → ω)

/-- What a failed phase leaves: a degraded build, with the diagnostics of a structural error, any other being answered. -/
structure FellBack (error : BuildError) (answer : Outcome Answer) (after : Build ω A) : Prop where
  phase : after.phase = .errored
  structural : ∀ fault, error = .structural fault →
    answer = .ok .done ∧ ∃ find, fault.diagnostics find <:+ after.structural
  other : (∀ fault, error ≠ .structural fault) → answer = .error error

namespace Setup

variable (setup : Setup ω A)

def answer (build : Build ω A) : DiagnosticQuery → Outcome Answer
  | .options => .ok (.diagnostics (setup.optionDiagnostics build))
  | .syntactic file isCancelled => (build.syntactic file isCancelled).map .diagnostics
  | .structural => build.structuralDiagnostics.map .diagnostics
  | .semantic file isCancelled => (build.semantic file isCancelled).map .diagnostics
  | .templateSemantic isCancelled => (build.templateSemantic isCancelled).map .templateDiagnostics

def perform : Call ω → Step ω A Answer
  | .buildStub => do
    setup.buildStub
    pure .done
  | .analyze mode => do
    setup.analyze mode
    pure .done
  | .buildTyped => do
    setup.buildTyped
    pure .done
  | .load mode => do
    setup.load mode
    pure .done
  | .emit options => do
    let result ← setup.emit options
    pure (.emitted result)
  | .ask query => do
    let build ← get
    ExceptT.mk (pure (setup.answer build query))

/-- The build after some events. -/
def follow : List (Event ω) → Build ω A → Build ω A
  | [], build => build
  | .call call :: rest, build => follow rest ((setup.perform call).on build).2
  | .change f :: rest, build =>
    follow rest { build with situation := { build.situation with world := f build.situation.world } }

/-- What a phase attempts fails with an error; a load fails with its first phase that does. -/
inductive Fails : Call ω → Build ω A → BuildError → Prop where
  | stub {build : Build ω A} {error : BuildError} (ready : build.phase = .uninitialized)
      (failed : ((setup.createStub build.oldProgram).run.run build.situation).1 = .error error) :
      Fails .buildStub build error
  | analysis {mode : AnalysisMode} {build : Build ω A} {error : BuildError} (ready : build.phase = .stubBuilt)
      (fresh : build.mode = none)
      (failed : ((setup.analysisOf mode build.stub).run.run build.situation).1 = .error error) :
      Fails (.analyze mode) build error
  | typed {build : Build ω A} {stub : Stub ω} {error : BuildError} (ready : build.phase = .analyzed)
      (present : build.stub = some stub)
      (failed : ((setup.createTyped stub).run.run build.situation).1 = .error error) :
      Fails .buildTyped build error
  | loadStub {mode : AnalysisMode} {build : Build ω A} {error : BuildError} (failed : Fails .buildStub build error) :
      Fails (.load mode) build error
  | loadAnalysis {mode : AnalysisMode} {build first : Build ω A} {error : BuildError}
      (built : setup.buildStub.on build = (.ok (), first)) (failed : Fails (.analyze mode) first error) :
      Fails (.load mode) build error
  | loadTyped {mode : AnalysisMode} {build first second : Build ω A} {error : BuildError}
      (built : setup.buildStub.on build = (.ok (), first)) (ready : first.phase = .stubBuilt)
      (analyzed : (setup.analyze mode).on first = (.ok (), second)) (failed : Fails .buildTyped second error) :
      Fails (.load mode) build error

theorem advances_perform (call : Call ω) : Within Build.Advances (setup.perform call).run := by
  cases call with
  | buildStub => exact .bindExcept setup.advances_buildStub fun _ => .pure _
  | analyze mode => exact .bindExcept (setup.advances_analyze mode) fun _ => .pure _
  | buildTyped => exact .bindExcept setup.advances_buildTyped fun _ => .pure _
  | load mode => exact .bindExcept (setup.advances_load mode) fun _ => .pure _
  | emit options => exact .bindExcept (setup.advances_emit options) fun _ => .pure _
  | ask query => exact .bindExcept .get fun _ => .pure _

/-- The world takes no part in the coherence of a build. -/
theorem advances_change (f : ω → ω) (build : Build ω A) :
    build.Advances { build with situation := { build.situation with world := f build.situation.world } } :=
  ⟨fun coherent => ⟨coherent.program, coherent.stub, coherent.analysis, coherent.degraded, coherent.reused,
    coherent.parked, coherent.mode⟩, id, fun _ begun => begun⟩

theorem advances_follow (events : List (Event ω)) (build : Build ω A) : build.Advances (setup.follow events build) := by
  induction events generalizing build with
  | nil => exact refl_of Build.Advances build
  | cons event rest ih =>
    cases event with
    | call call => exact trans_of Build.Advances (setup.advances_perform call build) (ih _)
    | change f => exact trans_of Build.Advances (advances_change f build) (ih _)

theorem coherent_follow (events : List (Event ω)) (world : ω) : (setup.follow events (setup.start world)).Coherent :=
  (setup.advances_follow events _).coherent (setup.coherent_start world)

/-! ## Out of order -/

theorem finalProgram_refused {build : Build ω A} (action : BuildAction)
    (early : build.phase ∉ [.finalBuilt, .emitted, .errored]) :
    build.finalProgram action = .error (.usage (.notLoaded action build.phase)) := by
  unfold Build.finalProgram
  cases phase : build.phase <;> simp_all

/-- A call out of its place is refused and leaves the build as it was. -/
theorem perform_refused {build : Build ω A} {call : Call ω} (out : ¬ call.InOrder build) :
    ∃ fault, (setup.perform call).on build = (.error (.usage fault), build) := by
  cases call with
  | buildStub =>
    rw [perform, Step.on_bind, setup.buildStub_refused out]
    exact ⟨_, rfl⟩
  | load mode =>
    rw [perform, Step.on_bind, setup.load_refused mode out]
    exact ⟨_, rfl⟩
  | analyze mode =>
    rw [perform, Step.on_bind]
    cases begun : build.mode with
    | some before =>
      rw [setup.analyze_again mode begun]
      exact ⟨_, rfl⟩
    | none =>
      rw [setup.analyze_refused mode begun fun ready => out ⟨ready, begun⟩]
      exact ⟨_, rfl⟩
  | buildTyped =>
    rw [perform, Step.on_bind, setup.buildTyped_refused out]
    exact ⟨_, rfl⟩
  | emit options =>
    rw [perform, Step.on_bind, setup.emit_refused options (finalProgram_refused .emit out)]
    exact ⟨_, rfl⟩
  | ask query =>
    rw [perform, Step.on_bind_get]
    cases query with
    | options => exact (out trivial).elim
    | syntactic file isCancelled =>
      rw [answer, Build.syntactic, finalProgram_refused .syntactic out]
      exact ⟨_, rfl⟩
    | structural =>
      rw [answer, Build.structuralDiagnostics, finalProgram_refused .structural out]
      exact ⟨_, rfl⟩
    | semantic file isCancelled =>
      rw [answer, Build.semantic, finalProgram_refused .semantic out]
      exact ⟨_, rfl⟩
    | templateSemantic isCancelled =>
      rw [answer, Build.templateSemantic, finalProgram_refused .templateSemantic out]
      exact ⟨_, rfl⟩

/-! ## Failures -/

theorem Fails.buildStub_on {build : Build ω A} {error : BuildError} (fails : setup.Fails .buildStub build error) :
    ∃ middle, setup.buildStub.on build = (setup.fallBack error).on middle := by
  cases fails with
  | stub ready failed =>
    rw [setup.buildStub_on ready]
    rcases ran : (setup.createStub build.oldProgram).run.run build.situation with ⟨outcome, situation⟩
    rw [ran] at failed
    cases failed
    exact ⟨_, rfl⟩

theorem Fails.analyze_on {mode : AnalysisMode} {build : Build ω A} {error : BuildError}
    (fails : setup.Fails (.analyze mode) build error) :
    ∃ middle, (setup.analyze mode).on build = (setup.fallBack error).on middle := by
  cases fails with
  | analysis ready fresh failed =>
    rw [setup.analyze_on fresh ready]
    rcases ran : (setup.analysisOf mode build.stub).run.run build.situation with ⟨outcome, situation⟩
    rw [ran] at failed
    cases failed
    exact ⟨_, rfl⟩

theorem Fails.buildTyped_on {build : Build ω A} {error : BuildError} (fails : setup.Fails .buildTyped build error) :
    ∃ middle, setup.buildTyped.on build = (setup.fallBack error).on middle := by
  cases fails with
  | @typed _ stub _ ready present failed =>
    rw [setup.buildTyped_on ready present]
    rcases ran : (setup.createTyped stub).run.run build.situation with ⟨outcome, situation⟩
    rw [ran] at failed
    cases failed
    exact ⟨_, rfl⟩

/-- A load ends with the failure of the first phase that fails. -/
theorem Fails.load_on {mode : AnalysisMode} {build : Build ω A} {error : BuildError}
    (fails : setup.Fails (.load mode) build error) :
    ∃ middle, (setup.load mode).on build = (setup.fallBack error).on middle := by
  rw [Setup.load_on]
  cases fails with
  | loadStub failed =>
    obtain ⟨middle, falls⟩ := failed.buildStub_on
    have errored := setup.fallBack_phase error middle
    rw [falls]
    refine ⟨middle, ?_⟩
    rcases fallen : (setup.fallBack error).on middle with ⟨_ | _, first⟩
    · rfl
    · simp_all
  | loadAnalysis built failed =>
    obtain ⟨middle, falls⟩ := failed.analyze_on
    have errored := setup.fallBack_phase error middle
    cases failed with
    | analysis ready _ _ =>
      rw [built]
      dsimp only
      rw [if_pos ready, falls]
      refine ⟨middle, ?_⟩
      rcases fallen : (setup.fallBack error).on middle with ⟨_ | _, second⟩
      · rfl
      · simp_all
  | loadTyped built ready analyzed failed =>
    obtain ⟨middle, falls⟩ := failed.buildTyped_on
    cases failed with
    | typed analyzedPhase _ _ =>
      rw [built]
      dsimp only
      rw [if_pos ready, analyzed]
      dsimp only
      rw [if_pos analyzedPhase]
      exact ⟨middle, falls⟩

/-- A structural error leaves at least one diagnostic. -/
theorem diagnostics_ne_nil (error : StructuralError) (find : String → Option SourceUnit) :
    error.diagnostics find ≠ [] := by
  unfold StructuralError.diagnostics
  repeat' split
  all_goals simp_all

theorem fellBack_of_on {step : Step ω A Unit} {build middle : Build ω A} {error : BuildError}
    (falls : step.on build = (setup.fallBack error).on middle) :
    FellBack error ((step >>= fun _ => pure Answer.done).on build).1
      ((step >>= fun _ => pure Answer.done).on build).2 := by
  rw [Step.on_bind, falls, fallBack_on]
  cases error with
  | structural error =>
    refine ⟨rfl, ?_, fun other => (other error rfl).elim⟩
    rintro _ ⟨⟩
    exact ⟨rfl, _, List.suffix_append _ _⟩
  | _ => exact ⟨rfl, nofun, fun _ => rfl⟩

/-- A phase that fails leaves a degraded build, and its error as diagnostics or as the answer. -/
theorem Fails.fellBack {call : Call ω} {build : Build ω A} {error : BuildError} (fails : setup.Fails call build error) :
    FellBack error ((setup.perform call).on build).1 ((setup.perform call).on build).2 := by
  cases call with
  | buildStub =>
    obtain ⟨middle, falls⟩ := fails.buildStub_on
    exact setup.fellBack_of_on falls
  | analyze mode =>
    obtain ⟨middle, falls⟩ := fails.analyze_on
    exact setup.fellBack_of_on falls
  | buildTyped =>
    obtain ⟨middle, falls⟩ := fails.buildTyped_on
    exact setup.fellBack_of_on falls
  | load mode =>
    obtain ⟨middle, falls⟩ := fails.load_on
    exact setup.fellBack_of_on falls
  | emit options => cases fails
  | ask query => cases fails

/-! ## Success -/

theorem buildStub_succeeds {build : Build ω A} (ready : build.phase = .uninitialized)
    (succeeds : ∀ error, ¬ setup.Fails .buildStub build error) :
    ∃ after, setup.buildStub.on build = (.ok (), after) ∧ after.phase = .stubBuilt := by
  rw [setup.buildStub_on ready]
  rcases ran : (setup.createStub build.oldProgram).run.run build.situation with ⟨outcome, situation⟩
  cases outcome with
  | ok stub => exact ⟨_, rfl, rfl⟩
  | error error => exact (succeeds error (.stub ready (by rw [ran]))).elim

theorem analyze_succeeds {mode : AnalysisMode} {build : Build ω A} (ready : build.phase = .stubBuilt)
    (fresh : build.mode = none) (succeeds : ∀ error, ¬ setup.Fails (.analyze mode) build error) :
    ∃ after, (setup.analyze mode).on build = (.ok (), after) ∧ after.phase = .analyzed := by
  rw [setup.analyze_on fresh ready]
  rcases ran : (setup.analysisOf mode build.stub).run.run build.situation with ⟨outcome, situation⟩
  cases outcome with
  | ok analysis => exact ⟨_, rfl, rfl⟩
  | error error => exact (succeeds error (.analysis ready fresh (by rw [ran]))).elim

theorem buildTyped_succeeds {build : Build ω A} (coherent : build.Coherent) (ready : build.phase = .analyzed)
    (succeeds : ∀ error, ¬ setup.Fails .buildTyped build error) :
    ∃ after, setup.buildTyped.on build = (.ok (), after) ∧ after.phase = .finalBuilt := by
  obtain ⟨stub, present⟩ := Option.isSome_iff_exists.mp (coherent.stub.mpr (by simp [ready]))
  rw [setup.buildTyped_on ready present]
  rcases ran : (setup.createTyped stub).run.run build.situation with ⟨outcome, situation⟩
  cases outcome with
  | ok program => exact ⟨_, rfl, rfl⟩
  | error error => exact (succeeds error (.typed ready present (by rw [ran]))).elim

theorem load_succeeds {mode : AnalysisMode} {build : Build ω A} (coherent : build.Coherent)
    (ready : build.phase = .uninitialized) (succeeds : ∀ error, ¬ setup.Fails (.load mode) build error) :
    ∃ after, (setup.load mode).on build = (.ok (), after) ∧ after.phase = .finalBuilt := by
  obtain ⟨first, built, stubBuilt⟩ :=
    setup.buildStub_succeeds ready fun error fails => succeeds error (.loadStub fails)
  have firstCoherent : first.Coherent := (setup.advances_buildStub.of_run built).coherent coherent
  have fresh : first.mode = none := by
    cases begun : first.mode with
    | none => rfl
    | some mode => exact (firstCoherent.mode (by simp [begun]) (by simp [stubBuilt])).elim
  obtain ⟨second, ran, analyzed⟩ :=
    setup.analyze_succeeds stubBuilt fresh fun error fails => succeeds error (.loadAnalysis built fails)
  have secondCoherent : second.Coherent := ((setup.advances_analyze mode).of_run ran).coherent firstCoherent
  obtain ⟨third, typed, finalBuilt⟩ :=
    setup.buildTyped_succeeds secondCoherent analyzed fun error fails =>
      succeeds error (.loadTyped built stubBuilt ran fails)
  refine ⟨third, ?_, finalBuilt⟩
  rw [load_on, built]
  dsimp only
  rw [if_pos stubBuilt, ran]
  dsimp only
  rw [if_pos analyzed, typed]

/-- A phase in its place that does not fail reaches its goal. -/
theorem perform_succeeds {call : Call ω} {build : Build ω A} {goal : Phase} (coherent : build.Coherent)
    (inOrder : call.InOrder build) (phase : call.target? = some goal)
    (succeeds : ∀ error, ¬ setup.Fails call build error) :
    ((setup.perform call).on build).1 = .ok .done ∧ ((setup.perform call).on build).2.phase = goal := by
  have reaches {step : Step ω A Unit} (ends : ∃ after, step.on build = (.ok (), after) ∧ after.phase = goal) :
      ((step >>= fun _ => pure Answer.done).on build).1 = .ok .done ∧
        ((step >>= fun _ => pure Answer.done).on build).2.phase = goal := by
    obtain ⟨after, ends, reached⟩ := ends
    rw [Step.on_bind, ends]
    exact ⟨rfl, reached⟩
  cases call with
  | buildStub =>
    cases phase
    exact reaches (setup.buildStub_succeeds inOrder succeeds)
  | analyze mode =>
    cases phase
    exact reaches (setup.analyze_succeeds inOrder.1 inOrder.2 succeeds)
  | buildTyped =>
    cases phase
    exact reaches (setup.buildTyped_succeeds coherent inOrder succeeds)
  | load mode =>
    cases phase
    exact reaches (setup.load_succeeds coherent inOrder succeeds)
  | emit options => cases phase
  | ask query => cases phase

/-! ## Whole runs -/

/-- What a call answers, and what it makes of a build. -/
structure Behaves (call : Call ω) (before after : Build ω A) (answer : Outcome Answer) : Prop where
  coherent : after.Coherent
  /-- There is no way back from a degraded build. -/
  errored : before.phase = .errored → after.phase = .errored
  refused : ¬ call.InOrder before → ∃ fault, answer = .error (.usage fault) ∧ after = before
  /-- There is one analysis, in one mode. -/
  again : ∀ mode first, call = .analyze mode → before.mode = some first →
    answer = .error (.usage (if first = mode then .loadedTwice else .loadedBothWays)) ∧ after = before
  begun : ∀ mode, before.mode = some mode ∨ call = .analyze mode ∧ call.InOrder before → after.mode = some mode
  asked : ∀ query, call = .ask query → after = before
  reached : ∀ goal, call.target? = some goal → call.InOrder before → (∀ error, ¬ setup.Fails call before error) →
    answer = .ok .done ∧ after.phase = goal
  failed : ∀ error, setup.Fails call before error → FellBack error answer after
  /-- A structural error is found among the diagnostics. -/
  told : ∀ fault, setup.Fails call before (.structural fault) →
    ∃ found, after.structuralDiagnostics = .ok found ∧ found ≠ []

theorem analyze_mode {mode : AnalysisMode} {build : Build ω A} (inOrder : (Call.analyze mode).InOrder build) :
    ((setup.perform (.analyze mode)).on build).2.mode = some mode := by
  rw [perform, Step.on_bind, setup.analyze_on inOrder.2 inOrder.1]
  rcases (setup.analysisOf mode build.stub).run.run build.situation with ⟨outcome, situation⟩
  cases outcome with
  | ok analysis => rfl
  | error error =>
    dsimp only
    rw [fallBack_on]
    cases error <;> rfl

/-- The program of a coherent degraded build answers for its structural diagnostics. -/
theorem structuralDiagnostics_of_fellBack {build : Build ω A} {fault : StructuralError} {answer : Outcome Answer}
    (fell : FellBack (.structural fault) answer build) (coherent : build.Coherent) :
    ∃ found, build.structuralDiagnostics = .ok found ∧ found ≠ [] := by
  obtain ⟨-, find, kept⟩ := fell.structural fault rfl
  obtain ⟨program, present⟩ := Option.isSome_iff_exists.mp (coherent.program.mpr (by simp [fell.phase]))
  refine ⟨build.structural.map (·.toDiagnostic), ?_, ?_⟩
  · rw [Build.structuralDiagnostics, Build.finalProgram, fell.phase, present]
    rfl
  · intro empty
    rw [List.map_eq_nil_iff] at empty
    rw [empty, List.suffix_nil] at kept
    exact diagnostics_ne_nil fault find kept

theorem behaves {call : Call ω} {build : Build ω A} (coherent : build.Coherent) :
    setup.Behaves call build ((setup.perform call).on build).2 ((setup.perform call).on build).1 := by
  have advances := setup.advances_perform call build
  refine ⟨advances.coherent coherent, advances.errored, ?refused, ?again, ?begun, ?asked, ?reached, ?failed, ?told⟩
  case refused =>
    intro out
    obtain ⟨fault, refused⟩ := setup.perform_refused out
    rw [refused]
    exact ⟨fault, rfl, rfl⟩
  case again =>
    rintro mode first rfl begun
    rw [perform, Step.on_bind, setup.analyze_again mode begun]
    exact ⟨rfl, rfl⟩
  case begun =>
    rintro mode (begun | ⟨rfl, inOrder⟩)
    · exact advances.mode mode begun
    · exact setup.analyze_mode inOrder
  case asked =>
    rintro query rfl
    rfl
  case reached =>
    intro goal phase inOrder succeeds
    exact setup.perform_succeeds coherent inOrder phase succeeds
  case failed =>
    intro error fails
    exact fails.fellBack
  case told =>
    intro fault fails
    exact structuralDiagnostics_of_fellBack fails.fellBack (advances.coherent coherent)

/-- Whatever calls are made and however the world changes between them, the build stays coherent and every further call
behaves. -/
theorem behaves_follow (setup : Setup ω A) (world : ω) (events : List (Event ω)) (call : Call ω) :
    let before := setup.follow events (setup.start world)
    let (answer, after) := (setup.perform call).on before
    before.Coherent ∧ setup.Behaves call before after answer :=
  ⟨setup.coherent_follow events world, setup.behaves (setup.coherent_follow events world)⟩

end Setup

end CompanionBuild
