import CompanionBuild.Outline.Compiler
import CompanionBuild.Proofs.Build.Rendering
import Mathlib.Data.List.Nodup

/-! # The compiler of outlines renders units

As long as the transforms make the same of a unit whenever they are asked, the compiler of outlines hands over the same
outputs for it, alone or with all others.
-/

namespace CompanionBuild

/-- Answering a dialogue in two parts. -/
theorem Dialogue.run_bind {σ ω Q α β : Type} {R : Q → Type} [HoldsWorld σ ω] (answer : (q : Q) → StateM σ (R q))
    (dialogue : Dialogue ω Q R α) (next : α → Dialogue ω Q R β) :
    (dialogue >>= next).run answer = dialogue.run answer >>= fun value => (next value).run answer := by
  change (dialogue.bind next).run answer = _
  induction dialogue with
  | done value => rfl
  | look rest ih =>
    funext state
    exact congrFun (ih (HoldsWorld.world state)) state
  | put world rest ih =>
    funext state
    exact congrFun ih (HoldsWorld.setWorld world state)
  | ask question rest ih =>
    funext state
    exact congrFun (ih (answer question state).1) (answer question state).2

theorem Dialogue.run_bind_of_run {σ ω Q α β : Type} {R : Q → Type} [HoldsWorld σ ω] {answer : (q : Q) → StateM σ (R q)}
    {dialogue : Dialogue ω Q R α} {next : α → Dialogue ω Q R β} {state middle : σ} {value : α}
    (ran : (dialogue.run answer).run state = (value, middle)) :
    ((dialogue >>= next).run answer).run state = ((next value).run answer).run middle := by
  rw [run_bind, StateT.run_bind, ran]
  rfl

namespace Outline

/-- The transforms of both stages turn a unit into `final u`, with the findings `found u`, wherever they are asked. -/
structure Transforms (pipeline : Pipeline (Situation World)) (units : List SourceUnit)
    (Steady : Situation World → Prop) (final : SourceUnit → SourceUnit) (found : SourceUnit → Findings) : Prop where
  apply : ∀ u ∈ units, ∀ situation, Steady situation → ∃ (v : SourceUnit) (findings : Findings) (early after : _),
    (Transform.applyAll .localOnly pipeline.before u).run.run {} situation = ((.ok v, findings), early) ∧
      (Transform.applyAll .localOnly pipeline.after v).run.run findings early = ((.ok (final u), found u), after) ∧
      Steady after ∧ after.world.memory.written = situation.world.memory.written
  name : ∀ u ∈ units, (final u).name = u.name

variable {pipeline : Pipeline (Situation World)} (router : Router World) {Steady : Situation World → Prop}
  {final : SourceUnit → SourceUnit} {found : SourceUnit → Findings}

theorem transformed_run {units : List SourceUnit} (transforms : Transforms pipeline units Steady final found)
    {u : SourceUnit} (member : u ∈ units) {situation : Situation World} (steady : Steady situation) (routed : Routed) :
    ∃ after, Steady after ∧ after.world.memory.written = situation.world.memory.written ∧
      ((transformed u).run (Emission.answer pipeline router)).run ⟨situation, routed⟩ =
        (.ok (final u, found u), ⟨after, routed⟩) := by
  obtain ⟨v, findings, early, after, before, rest, stays, same⟩ := transforms.apply u member situation steady
  refine ⟨after, stays, same, ?_⟩
  have first : ((EmitDialogue.ask (.transform .before .localOnly {} u)).run (Emission.answer pipeline router)).run
      ⟨situation, routed⟩ = ((.ok v, findings), ⟨early, routed⟩) := by
    change (let (value, situation) := (Transform.applyAll .localOnly pipeline.before u).run.run {} situation
      (value, (⟨situation, routed⟩ : Emission World))) = _
    rw [before]
  have second : ((EmitDialogue.ask (.transform .after .localOnly findings v)).run (Emission.answer pipeline router)).run
      ⟨early, routed⟩ = ((.ok (final u), found u), ⟨after, routed⟩) := by
    change (let (value, situation) := (Transform.applyAll .localOnly pipeline.after v).run.run findings early
      (value, (⟨situation, routed⟩ : Emission World))) = _
    rw [rest]
  rw [transformed, Dialogue.run_bind_of_run first]
  dsimp only
  rw [Dialogue.run_bind_of_run second]
  rfl

theorem transformAll_run {all units : List SourceUnit} (transforms : Transforms pipeline all Steady final found)
    (members : ∀ u ∈ units, u ∈ all) {situation : Situation World} (steady : Steady situation) (routed : Routed) :
    ∃ after, Steady after ∧ after.world.memory.written = situation.world.memory.written ∧
      ((transformAll units).run (Emission.answer pipeline router)).run ⟨situation, routed⟩ =
        (.ok (units.flatMap fun u => (found u).diagnostics ++ emitDiagnostics u, units.map final), ⟨after, routed⟩) := by
  induction units generalizing situation with
  | nil => exact ⟨situation, steady, rfl, rfl⟩
  | cons u rest ih =>
    obtain ⟨middle, stays, same, first⟩ :=
      transformed_run router transforms (members u (List.mem_cons_self ..)) steady routed
    obtain ⟨after, ends, sameRest, others⟩ := ih (fun v member => members v (List.mem_cons_of_mem _ member)) stays
    refine ⟨after, ends, sameRest.trans same, ?_⟩
    rw [transformAll, Dialogue.run_bind_of_run first]
    dsimp only
    rw [Dialogue.run_bind_of_run others]
    rfl

theorem writeAll_run (plan : EmitPlan World) (outputs : List OutputFile) (emission : Emission World) :
    ((writeAll outputs).run (Emission.answer plan.pipeline plan.router)).run emission =
      (plan.passAll outputs).run.run emission := by
  induction outputs generalizing emission with
  | nil => rfl
  | cons output rest ih =>
    rcases passed : (Emission.ofRouter (plan.router.passOutput output)).run.run emission with ⟨outcome, middle⟩
    have asked : ((EmitDialogue.ask (.write output)).run (Emission.answer plan.pipeline plan.router)).run emission =
        (outcome, middle) := passed
    have split : (plan.passAll (output :: rest)).run.run emission =
        (Emission.ofRouter (plan.router.passOutput output) >>= fun _ => plan.passAll rest).run.run emission := rfl
    rw [split, ExceptT.run_bind, StateT.run_bind, passed, writeAll, Dialogue.run_bind_of_run asked]
    cases outcome with
    | ok value => exact ih middle
    | error error => rfl

/-- The files written so far. -/
def stored (world : World) : Store :=
  world.memory.written.get?

section

variable (settings : Settings) (options : Options) (units : List SourceUnit) (onlyDeclarations : Bool)
  (final : SourceUnit → SourceUnit) (found : SourceUnit → Findings)

/-- What is handed over for a unit, or for all. -/
def handed (target : Option String) : List OutputFile :=
  (emitted units target).flatMap fun u => outputs settings options onlyDeclarations (final u)

def told (target : Option String) : EmitResult where
  diagnostics := (emitted units target).flatMap fun u => (found u).diagnostics ++ emitDiagnostics u
  emitted := (handed settings options units onlyDeclarations final target).map (·.name)

end

variable {settings : Settings} {options : Options} {units : List SourceUnit} {plan : EmitPlan World}

theorem mem_emitted (target : Option String) : ∀ u ∈ emitted units target, u ∈ emitted units none := by
  intro u member
  rw [emitted, List.mem_filter] at member
  rw [emitted, List.mem_filter]
  refine ⟨?_, member.2⟩
  cases target with
  | none => exact member.1
  | some name => exact List.mem_of_find?_eq_some (Option.mem_toList.mp member.1)

theorem emitTarget_run (separate : settings.bundle = none) (active : plan.isCancelled = false)
    (emits : plan.program.emit = emit settings options units)
    (notes : ∀ line situation, Steady situation → Steady { situation with world := ((note line).run situation.world).2 })
    (transforms : Transforms plan.pipeline (emitted units none) Steady final found) (target : Option String)
    {situation : Situation World} (steady : Steady situation) (routed : Routed) :
    ∃ ready, Steady ready ∧ stored ready.world = stored situation.world ∧
      (plan.emitTarget target).run.run ⟨situation, routed⟩ =
        (do plan.passAll (handed settings options units plan.flags.onlyDeclarations final target)
            pure (told settings options units plan.flags.onlyDeclarations final found target)).run.run
          ⟨ready, routed⟩ := by
  let request : EmitRequest := {
    target
    onlyDeclarations := plan.flags.onlyDeclarations
    transforms := plan.pipeline.names
    isCancelled := plan.isCancelled }
  have running : request.isCancelled = false := active
  let noted : Situation World :=
    { situation with world := ((note (describeEmit request)).run situation.world).2 }
  obtain ⟨ready, stays, same, made⟩ := transformAll_run plan.router transforms (mem_emitted target)
    (notes (describeEmit request) situation steady) routed
  refine ⟨ready, stays, congrArg Table.get? same, ?_⟩
  have first : ((Dialogue.act (note (describeEmit request))).run (Emission.answer plan.pipeline plan.router)).run
      ⟨situation, routed⟩ = ((), ⟨noted, routed⟩) := rfl
  have outputs_eq : bundled settings ((emitted units target).map final |>.flatMap
      (outputs settings options plan.flags.onlyDeclarations)) =
        handed settings options units plan.flags.onlyDeclarations final target := by
    rw [bundled, separate, List.flatMap_map]
    rfl
  change ((plan.program.emit request).run (Emission.answer plan.pipeline plan.router)).run ⟨situation, routed⟩ = _
  rw [emits, emit, Dialogue.run_bind_of_run first]
  dsimp only
  rw [if_neg (by rw [running]; decide), Dialogue.run_bind_of_run made]
  dsimp only
  rw [outputs_eq, Dialogue.run_bind, StateT.run_bind, writeAll_run, ExceptT.run_bind, StateT.run_bind]
  rcases (plan.passAll (handed settings options units plan.flags.onlyDeclarations final target)).run.run
    ⟨ready, routed⟩ with ⟨outcome, after⟩
  cases outcome <;> rfl

theorem name_of_findUnit? {name : String} {u : SourceUnit} (found : findUnit? units name = some u) : u.name = name := by
  have named := List.find?_some found
  exact of_decide_eq_true named

theorem name_of_mem_emitted {name : String} {u : SourceUnit} (member : u ∈ emitted units (some name)) : u.name = name :=
  name_of_findUnit? (Option.mem_toList.mp (List.mem_filter.mp member).1)

theorem findUnit?_eq_some (distinct : (units.map (·.name)).Nodup) (name : String) (u : SourceUnit) :
    findUnit? units name = some u ↔ u ∈ units ∧ u.name = name := by
  constructor
  · intro found
    exact ⟨List.mem_of_find?_eq_some found, name_of_findUnit? found⟩
  · rintro ⟨member, rfl⟩
    cases search : findUnit? units u.name with
    | none =>
      have different := List.find?_eq_none.mp search u member
      simp at different
    | some v =>
      rw [List.inj_on_of_nodup_map distinct (List.mem_of_find?_eq_some search) member (name_of_findUnit? search)]

theorem emitted_some (distinct : (units.map (·.name)).Nodup) {u : SourceUnit} (member : u ∈ emitted units none) :
    emitted units (some u.name) = [u] := by
  obtain ⟨present, source⟩ := List.mem_filter.mp member
  have found := (findUnit?_eq_some distinct u.name u).mpr ⟨present, rfl⟩
  rw [emitted, Option.elim_some, found, Option.toList_some, List.filter_singleton, source, cond_true]

/-- The compiler of outlines renders units. -/
theorem renders (separate : settings.bundle = none) (active : plan.isCancelled = false)
    {roots : List String} {old : Option (Program World)} (made : plan.program = program settings roots options old units)
    (distinct : (units.map (·.name)).Nodup)
    (notes : ∀ line situation, Steady situation → Steady { situation with world := ((note line).run situation.world).2 })
    (writes : ∀ name text sources situation, Steady situation →
      Steady { situation with world := ((plan.router.files.write name text sources).run situation.world).2 })
    (transforms : Transforms plan.pipeline (emitted units none) Steady final found) :
    plan.Renders stored Steady
      (fun name => handed settings options units plan.flags.onlyDeclarations final (some name))
      (told settings options units plan.flags.onlyDeclarations final found) where
  one name situation routed steady :=
    emitTarget_run separate active (by rw [made]; rfl) notes transforms (some name) steady routed
  all situation routed steady := by
    obtain ⟨ready, stays, same, emits⟩ :=
      emitTarget_run separate active (by rw [made]; rfl) notes transforms none steady routed
    refine ⟨ready, stays, same, ?_⟩
    have whole : handed settings options units plan.flags.onlyDeclarations final none =
        plan.emittable.flatMap fun name => handed settings options units plan.flags.onlyDeclarations final (some name) := by
      rw [EmitPlan.emittable, made, List.flatMap_map]
      refine List.flatMap_congr fun u member => ?_
      rw [handed, emitted_some distinct member, List.flatMap_singleton]
    rw [emits, whole]
  write := writes
  sources name output member := by
    obtain ⟨u, present, output_mem⟩ := List.mem_flatMap.mp member
    have named : (final u).name = name := by
      rw [transforms.name u (mem_emitted (some name) u present)]
      exact name_of_mem_emitted present
    rw [outputs, List.mem_append] at output_mem
    rw [← named]
    obtain script | declaration := output_mem
    · split at script
      · cases script
      · rw [List.mem_singleton.mp script]
    · split at declaration
      · rw [List.mem_singleton.mp declaration]
      · cases declaration
  known name nonempty := by
    obtain ⟨output, member⟩ := List.exists_mem_of_ne_nil _ nonempty
    obtain ⟨u, present, -⟩ := List.mem_flatMap.mp member
    rw [EmitPlan.emittable, made]
    exact List.mem_map.mpr ⟨u, mem_emitted (some name) u present, name_of_mem_emitted present⟩
  indexed name u := by
    rw [made]
    exact findUnit?_eq_some distinct name u

end Outline

end CompanionBuild
