import CompanionBuild.Build.Record
import CompanionBuild.Proofs.Build.Emission
import CompanionBuild.Proofs.Outline.Round

/-! # Emits that do not finish

An emit may fail at any point, also after outputs were written. It may also be asked for no files, or find that the
companions cannot be made. Whatever went through by then is not recorded: the build stands where it stood, and leaves to
the next one what it would have left without the emit. An emit that is stopped by none of these returns a result and
replaces the records.
-/

namespace CompanionBuild

variable {ω A : Type}

/-- The build after an emit that got to its end. -/
def Build.recording (build : Build ω A) (companions : List Companion) (emission : Emission ω) : Build ω A :=
  { build with
    situation := emission.situation
    emitted := ⟨emission.routed.summaries, companions, emission.routed.units⟩
    phase := if build.phase = .errored then .errored else .emitted }

namespace Setup

variable (setup : Setup ω A)

/-! ## What is kept -/

/-- The build stands where it stood, and the next one finds the same records. -/
structure KeepsRecords (before after : Build ω A) : Prop where
  phase : after.phase = before.phase
  structural : after.structural = before.structural
  summaries : setup.summaries after = setup.summaries before
  companions : setup.emittedCompanions after = setup.emittedCompanions before
  units : setup.emittedUnits after = setup.emittedUnits before
  records : setup.records after = setup.records before

theorem keepsRecords_situation (build : Build ω A) (situation : Situation ω) :
    setup.KeepsRecords build { build with situation } :=
  ⟨rfl, rfl, rfl, rfl, rfl, rfl⟩

/-! ## What stops an emit -/

variable (options : EmitOptions ω) (build : Build ω A)

/-- The analyzer finds fault with the structure of the project when it is asked for the companions to be emitted. -/
def FailsStructurally : Prop :=
  options.flags.companions = true ∧ ∃ analysis error, build.analysis = some analysis ∧
    ((setup.host.consult (setup.analyzer.implementations analysis)).run
      ((HostM.inWorld setup.clock).run build.situation).2).1 = .error (.structural error)

/-- The emit does not get to the end. -/
inductive StopsShort : Prop
  | failed {error : BuildError} (fails : ((setup.emit options).on build).1 = .error error)
  | unwanted (nothing : options.flags.producesFiles = false)
  | ungenerated (fails : setup.FailsStructurally options build)

/-- The ways in which an emit can end, with its answer and the build that it leaves. -/
inductive EmitEnds : Outcome EmitResult × Build ω A → Prop
  | failed (error : BuildError) (situation : Situation ω) : EmitEnds (.error error, { build with situation })
  | skipped (diagnostics : List Diagnostic) (situation : Situation ω)
      (early : options.flags.producesFiles = false ∨ setup.FailsStructurally options build) :
      EmitEnds (.ok (.skipped diagnostics), { build with situation })
  | done {program : Program ω} {companions : List Companion} {start : Situation ω} {started : Nat} {result : EmitResult}
      {emission : Emission ω} (final : build.finalProgram .emit = .ok program)
      (produces : options.flags.producesFiles = true)
      (generates : ¬setup.FailsStructurally options build)
      (ran : (setup.emitPlan (setup.plan program companions options) build.structural started).run.run ⟨start, {}⟩ =
        (.ok result, emission)) :
      EmitEnds (.ok result, build.recording companions emission)

variable {setup options build}

/-- The companions of an emit come out as diagnostics exactly where the structure of the project is at fault. -/
theorem failsStructurally_iff : setup.FailsStructurally options build ↔
    ∃ diagnostics after, (setup.companionsForEmit options.flags build.analysis).run.run
      ((HostM.inWorld setup.clock).run build.situation).2 = (.ok (.error diagnostics), after) := by
  unfold FailsStructurally companionsForEmit
  generalize ((HostM.inWorld setup.clock).run build.situation).2 = timed
  cases options.flags.companions with
  | false =>
    constructor
    · rintro ⟨wanted, -⟩
      cases wanted
    · rintro ⟨diagnostics, after, ran⟩
      cases ran
  | true =>
    cases build.analysis with
    | none =>
      constructor
      · rintro ⟨-, analysis, error, known, -⟩
        cases known
      · rintro ⟨diagnostics, after, ran⟩
        cases ran
    | some analysis =>
      rcases asked : (setup.host.consult (setup.analyzer.implementations analysis)).run timed with ⟨outcome, middle⟩
      have lifted : (ExceptT.lift (setup.host.consult (setup.analyzer.implementations analysis)) :
          Attempt ω (Outcome (List Companion))).run.run timed = (.ok outcome, middle) := by
        change (Except.ok ((setup.host.consult (setup.analyzer.implementations analysis)).run timed).1,
          ((setup.host.consult (setup.analyzer.implementations analysis)).run timed).2) = _
        rw [asked]
      simp only [Bool.not_true, Bool.false_eq_true, if_false]
      rw [run_bind_of_ok lifted]
      constructor
      · rintro ⟨-, _, error, known, fails⟩
        obtain rfl := Option.some.inj known
        rw [asked] at fails
        obtain rfl : outcome = .error (.structural error) := fails
        exact ⟨_, middle, rfl⟩
      · rintro ⟨diagnostics, after, ran⟩
        obtain (error | companions) := outcome
        · cases error with
          | structural error => exact ⟨trivial, analysis, error, rfl, by rw [asked]⟩
          | _ => cases ran
        · cases ran

theorem emit_ends (setup : Setup ω A) (options : EmitOptions ω) (build : Build ω A) :
    setup.EmitEnds options build ((setup.emit options).on build) := by
  have structural := @failsStructurally_iff _ _ setup options build
  cases final : build.finalProgram .emit with
  | error error =>
    rw [setup.emit_refused options final]
    exact .failed error build.situation
  | ok program =>
    rw [setup.emit_on options final]
    rcases clock : (HostM.inWorld setup.clock).run build.situation with ⟨started, timed⟩
    rw [clock] at structural
    dsimp only at structural ⊢
    split
    case isTrue nothing => exact .skipped [] timed (.inl (by simpa using nothing))
    case isFalse produces =>
      rcases ran : (setup.companionsForEmit options.flags build.analysis).run.run timed with ⟨outcome, situation⟩
      rcases outcome with error | diagnostics | companions
      · exact .failed error situation
      · exact .skipped diagnostics situation (.inr (structural.mpr ⟨diagnostics, situation, ran⟩))
      · dsimp only
        rw [emitAndRecord_on]
        dsimp only
        have generates : ¬setup.FailsStructurally options build := by
          intro fails
          obtain ⟨diagnostics, after, other⟩ := structural.mp fails
          rw [ran] at other
          cases other
        rcases emits : (setup.emitPlan (setup.plan program companions options) build.structural started).run.run
          ⟨situation, {}⟩ with ⟨outcome, emission⟩
        cases outcome with
        | error error => exact .failed error emission.situation
        | ok result => exact .done final (by simpa using produces) generates emits

/-- However far an emit gets before it fails, and whether it is skipped because no files were asked for or because the
companions cannot be made, the build stands where it stood and leaves the same records. An emit that none of these stops
gets to its end, and what went through it is recorded. -/
theorem unfinished_emit_keeps_records (setup : Setup ω A) (options : EmitOptions ω) (build : Build ω A) :
    (setup.StopsShort options build →
      setup.KeepsRecords build ((setup.emit options).on build).2 ∧
        ∀ result, ((setup.emit options).on build).1 = .ok result → result.isSkipped = true ∧ result.emitted = []) ∧
    (¬setup.StopsShort options build → ∃ program companions start started result emission,
      build.finalProgram .emit = .ok program ∧
      (setup.emitPlan (setup.plan program companions options) build.structural started).run.run ⟨start, {}⟩ =
        (.ok result, emission) ∧
      (setup.emit options).on build = (.ok result, build.recording companions emission)) := by
  have ends := setup.emit_ends options build
  constructor
  · intro stops
    generalize ended : (setup.emit options).on build = answer at ends
    cases ends with
    | failed error situation =>
      refine ⟨setup.keepsRecords_situation build situation, fun result answers => ?_⟩
      cases answers
    | skipped diagnostics situation =>
      refine ⟨setup.keepsRecords_situation build situation, fun result answers => ?_⟩
      cases answers
      exact ⟨rfl, rfl⟩
    | done _ produces generates =>
      cases stops with
      | failed fails =>
        rw [ended] at fails
        cases fails
      | unwanted nothing =>
        rw [nothing] at produces
        cases produces
      | ungenerated fails => exact (generates fails).elim
  · intro goes
    generalize ended : (setup.emit options).on build = answer at ends
    cases ends with
    | failed error situation => exact (goes (.failed (congrArg Prod.fst ended))).elim
    | skipped diagnostics situation early => exact (goes (early.elim .unwanted .ungenerated)).elim
    | done final produces generates ran => exact ⟨_, _, _, _, _, _, final, ran, rfl⟩

end Setup

namespace Outline

/-- A build of two units with the records of an earlier emit. -/
def earlier : Build World Analysis :=
  { ready plainOptions twoUnits {} with emitted := ⟨[], companionsOf "ɵold", twoUnits⟩ }

/-- The setup in which the disk refuses some outputs. -/
def refusing (unwritable : List String) : Setup World Analysis :=
  { setupOf plainOptions (companionsOf "ɵnew") {} with files := files { unwritable } "/" }

/-- An emit that fails at its second output has written the first, and keeps the records. On a disk that takes everything
the emit replaces them. -/
theorem interrupted_emit_keeps_records :
    (∃ after, ((refusing ["/a.axfactory.js"]).emit { batching := .perFile }).on earlier =
        (.error (.io "/a.axfactory.js" "disk full"), after) ∧
      after.situation.world.writes.map (·.1) = ["/a.js"] ∧
      (refusing ["/a.axfactory.js"]).KeepsRecords earlier after) ∧
    ∃ result companions emission, ((refusing []).emit { batching := .perFile }).on earlier =
      (.ok result, earlier.recording companions emission) := by
  have fails : (((refusing ["/a.axfactory.js"]).emit { batching := .perFile }).on earlier).1 =
      .error (.io "/a.axfactory.js" "disk full") := rfl
  have goes : ¬(refusing []).StopsShort { batching := .perFile } earlier := by
    have succeeds : (((refusing []).emit { batching := .perFile }).on earlier).1.isOk = true := by decide +kernel
    rintro (fails | nothing | ⟨-, analysis, error, known, fails⟩)
    · rw [fails] at succeeds
      cases succeeds
    · cases nothing
    · obtain rfl := Option.some.inj known
      cases fails
  have finished := (Setup.unfinished_emit_keeps_records (refusing []) { batching := .perFile } earlier).2 goes
  obtain ⟨-, companions, -, -, result, emission, -, -, ends⟩ := finished
  exact ⟨⟨_, Prod.ext fails rfl, by decide +kernel, ((Setup.unfinished_emit_keeps_records _ _ _).1 (.failed fails)).1⟩,
    result, companions, emission, ends⟩

end Outline

end CompanionBuild
