import CompanionBuild.Build.Record
import CompanionBuild.Proofs.Build.Rendering
import CompanionBuild.Proofs.Table

/-! # Rounds

A round is a successful emit of the usual kind together with what the compiler made of the units. What a round writes is
what was made of the units it was about and, if the compiler handed anything over, the finished texts among the changed
companions. What it leaves to the next build are the units that came out and all changed companions, written or not.
-/

namespace CompanionBuild

variable {ω A : Type} {stored : ω → Store}

structure Round (ω A : Type) (stored : ω → Store) where
  setup : Setup ω A
  build : Build ω A
  options : EmitOptions ω
  program : Program ω
  analysis : A
  /-- The companions that the analyzer made, changed or not. -/
  generated : List Companion
  /-- The situation after they were made. -/
  start : Situation ω
  result : EmitResult
  after : Build ω A
  Steady : Situation ω → Prop
  made : String → List OutputFile
  told : Option String → EmitResult
  final : build.finalProgram .emit = .ok program
  analyzed : build.analysis = some analysis
  usual : options.flags = .usual
  generates : (setup.host.consult (setup.analyzer.implementations analysis)).run
    ((HostM.inWorld setup.clock).run build.situation).2 = (.ok generated, start)
  emits : (setup.emit options).on build = (.ok result, after)
  stores : setup.files.Stores stored
  quiet : Within (Alike stored) setup.clock
  untouched : stored start.world = stored build.situation.world
  renders : (setup.plan program (setup.changedCompanions generated) options).Renders stored Steady made told
  steady : Steady start

namespace Round

variable (round : Round ω A stored)

def plan : EmitPlan ω :=
  round.setup.plan round.program (round.setup.changedCompanions round.generated) round.options

/-- The user's units. -/
def users : List SourceUnit :=
  round.program.units.filter fun u => !u.isDeclaration && !Path.isCompanion u.name

/-- What is written of a unit. -/
def kept (name : String) : List (String × String) :=
  round.plan.router.kept (round.made name)

/-- The mapper for finished texts; there is none when the compiler hands nothing over. -/
def mapper? : Option OutputMapper :=
  round.plan.mapper? round.setup.options.outDir round.made

/-- What is written of a companion as a finished text. -/
def finishedFiles (mapper : OutputMapper) (companion : Companion) : List (String × String) :=
  if companion.source.isSome then
    round.plan.router.fileOf (mapper.map companion.name) (companion.source.getD "") (some companion)
  else []

/-- Everything that is written. -/
def files : List (String × String) :=
  round.plan.emittedNames.flatMap round.kept ++
    round.mapper?.elim [] fun mapper => round.plan.companions.flatMap (round.finishedFiles mapper)

theorem companionsForEmit_run :
    (round.setup.companionsForEmit round.options.flags round.build.analysis).run.run
        ((HostM.inWorld round.setup.clock).run round.build.situation).2 =
      (.ok (.ok (round.setup.changedCompanions round.generated)), round.start) := by
  have lifted : (ExceptT.lift (round.setup.host.consult (round.setup.analyzer.implementations round.analysis)) :
      Attempt ω _).run.run ((HostM.inWorld round.setup.clock).run round.build.situation).2 =
        (.ok (.ok round.generated), round.start) := by
    rw [ExceptT.run_lift, StateT.run_map, round.generates]
    rfl
  rw [round.usual, round.analyzed, Setup.companionsForEmit, if_neg (by decide), ExceptT.run_bind, StateT.run_bind, lifted]
  rfl

/-- The outcome of a round in terms of its plan. -/
theorem emission :
    ∃ emission started, (round.setup.emitPlan round.plan round.build.structural started).run.run ⟨round.start, {}⟩ =
        (.ok round.result, emission) ∧
      round.after = { round.build with
        situation := emission.situation
        emitted := ⟨emission.routed.summaries, round.plan.companions, emission.routed.units⟩
        phase := if round.build.phase = .errored then .errored else .emitted } := by
  have emits := round.emits
  have companions := round.companionsForEmit_run
  rw [round.setup.emit_on round.options round.final] at emits
  rcases clocked : (HostM.inWorld round.setup.clock).run round.build.situation with ⟨started, timed⟩
  rw [clocked] at emits companions
  dsimp only at emits companions
  rw [if_neg (by rw [round.usual]; decide), companions] at emits
  dsimp only at emits
  rw [Setup.emitAndRecord_on] at emits
  rcases ran : (round.setup.emitPlan round.plan round.build.structural started).run.run ⟨round.start, {}⟩ with
    ⟨_ | result, emission⟩
  · rw [Round.plan] at ran
    rw [ran] at emits
    cases emits
  · have planned := ran
    rw [Round.plan] at planned
    rw [planned] at emits
    obtain ⟨rfl, same⟩ : result = round.result ∧ _ = round.after :=
      ⟨Except.ok.inj (congrArg Prod.fst emits), congrArg Prod.snd emits⟩
    exact ⟨emission, started, ran, same.symm⟩

private theorem flatMap_filter {α β : Type} (p : α → Bool) (f : α → List β) (list : List α) :
    (list.filter p).flatMap f = list.flatMap fun a => if p a then f a else [] := by
  induction list with
  | nil => rfl
  | cons a rest ih => cases holds : p a <;> simp [holds, ih]

theorem written_eq_files :
    round.plan.written round.setup.options.outDir round.made (fun _ => none) = round.files := by
  have finished (mapper : OutputMapper) :
      round.plan.restFiles (fun _ => none) mapper = round.plan.companions.flatMap (round.finishedFiles mapper) := by
    have companions : round.plan.flags.companions = true := by
      change round.options.flags.companions = true
      rw [round.usual]
      rfl
    have metadata : round.plan.flags.metadata = false := by
      change round.options.flags.metadata = false
      rw [round.usual]
      rfl
    rw [EmitPlan.restFiles, if_pos companions, if_neg (by rw [metadata]; decide), List.append_nil,
      EmitPlan.finishedFiles, EmitPlan.finished, flatMap_filter]
    rfl
  rw [EmitPlan.written, files, Router.kept, List.flatMap_assoc, funext finished]
  rfl

/-- What a round does to the store. -/
theorem store_after :
    stored round.after.situation.world = (stored round.build.situation.world).putAll round.files := by
  obtain ⟨emission, started, ran, after⟩ := round.emission
  have unwanted : round.options.flags.metadata ≠ true := by
    rw [round.usual]
    decide
  obtain ⟨store, -, -⟩ := round.setup.emitPlan_ok round.options (fun _ => none) round.renders round.stores round.quiet
    (fun wanted => (unwanted wanted).elim) round.steady ran
  rw [after, ← round.written_eq_files, ← round.untouched]
  exact store

/-- The units that came out. -/
theorem units_after :
    round.after.emitted.units = round.plan.router.emittedUnits (round.plan.emittedNames.flatMap round.made) := by
  obtain ⟨emission, started, ran, after⟩ := round.emission
  have unwanted : round.options.flags.metadata ≠ true := by
    rw [round.usual]
    decide
  obtain ⟨-, units, -⟩ := round.setup.emitPlan_ok round.options (fun _ => none) round.renders round.stores round.quiet
    (fun wanted => (unwanted wanted).elim) round.steady ran
  rw [after]
  exact units

theorem companions_after : round.after.emitted.companions = round.plan.companions := by
  obtain ⟨emission, started, ran, after⟩ := round.emission
  rw [after]

/-! ## Members -/

theorem mem_users {u : SourceUnit} :
    u ∈ round.users ↔ u ∈ round.program.units ∧ u.isDeclaration = false ∧ Path.isCompanion u.name = false := by
  simp [users]

theorem mem_files {file : String × String} :
    file ∈ round.files ↔
      (∃ name ∈ round.plan.emittedNames, file ∈ round.kept name) ∨
        ∃ mapper, round.mapper? = some mapper ∧ ∃ c ∈ round.plan.companions, file ∈ round.finishedFiles mapper c := by
  rw [files, List.mem_append, List.mem_flatMap]
  cases round.mapper? with
  | none => simp
  | some mapper => simp

theorem emittedUnit?_eq_some {name : String} {u : SourceUnit} :
    round.plan.router.emittedUnit? name = some u ↔ u ∈ round.users ∧ u.name = name := by
  have indexed : round.plan.router.unit? name = some u ↔ u ∈ round.program.units ∧ u.name = name :=
    round.renders.indexed name u
  rw [Router.emittedUnit?, Option.filter_eq_some_iff, indexed, mem_users, Bool.and_eq_true, Bool.not_eq_true',
    Bool.not_eq_true']
  constructor
  · rintro ⟨⟨member, rfl⟩, source, user⟩
    exact ⟨⟨member, source, user⟩, rfl⟩
  · rintro ⟨⟨member, source, user⟩, rfl⟩
    exact ⟨⟨member, rfl⟩, source, user⟩

/-- A unit comes out when something is made of its name. -/
theorem mem_emitted_units {u : SourceUnit} :
    u ∈ round.after.emitted.units ↔
      u ∈ round.users ∧ u.name ∈ round.plan.emittedNames ∧ round.made u.name ≠ [] := by
  rw [units_after, Router.emittedUnits, List.mem_filterMap]
  constructor
  · rintro ⟨output, member, found⟩
    obtain ⟨name, emitted, member⟩ := List.mem_flatMap.mp member
    rw [round.renders.sources name output member] at found
    obtain ⟨user, rfl⟩ := round.emittedUnit?_eq_some.mp found
    exact ⟨user, emitted, List.ne_nil_of_mem member⟩
  · rintro ⟨user, emitted, some⟩
    obtain ⟨output, member⟩ := List.exists_mem_of_ne_nil _ some
    refine ⟨output, List.mem_flatMap.mpr ⟨u.name, emitted, member⟩, ?_⟩
    rw [round.renders.sources u.name output member]
    exact round.emittedUnit?_eq_some.mpr ⟨user, rfl⟩

end Round

end CompanionBuild
