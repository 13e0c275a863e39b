import CompanionBuild.Proofs.Build.Handling
import CompanionBuild.Proofs.Outline.Round

/-! # Chains of builds

Each build of a chain takes over the records of the one before and leaves out what they say is emitted already. They say
it of a unit by its text and of a companion by what it prints, and no more. What comes of a unit depends on more than its
text, and what is recorded need not have been written. So a build may slip: it counts something as emitted, and a build
from scratch would write something else. A chain of builds has everything that a build from scratch writes if and only if
whatever such a slip concerns was there nevertheless.
-/

namespace CompanionBuild

variable {ω A : Type} {stored : ω → Store}

/-- The first element of a list that has a property. -/
inductive Latest {α : Type} (P : α → Prop) : List α → α → Prop where
  | here {a : α} {rest : List α} (holds : P a) : Latest P (a :: rest) a
  | older {a b : α} {rest : List α} (fails : ¬ P a) (latest : Latest P rest b) : Latest P (a :: rest) b

namespace Latest

variable {α : Type} {P Q : α → Prop} {list : List α} {a : α}

theorem mem (latest : Latest P list a) : a ∈ list := by
  induction latest with
  | here => exact List.mem_cons_self ..
  | older _ _ ih => exact List.mem_cons_of_mem _ ih

theorem holds (latest : Latest P list a) : P a := by
  induction latest with
  | here holds => exact holds
  | older _ _ ih => exact ih

/-- For another property an element that comes earlier may be the first. -/
theorem exists_of_holds (latest : Latest Q list a) (holds : P a) : ∃ b, Latest P list b ∧ (b = a ∨ ¬ Q b) := by
  induction latest with
  | here => exact ⟨_, .here holds, .inl rfl⟩
  | @older x _ _ fails _ ih =>
    by_cases first : P x
    · exact ⟨x, .here first, .inr fails⟩
    · obtain ⟨b, latest, same⟩ := ih holds
      exact ⟨b, .older first latest, same⟩

end Latest

/-! ## Whole chains -/

/-- Builds of which each takes over the records and the outputs of the one before, the last one first. -/
inductive Chain : List (Round ω A stored) → Prop where
  | first {round : Round ω A stored} (fresh : round.setup.previous = {}) : Chain [round]
  | next {round last : Round ω A stored} {rounds : List (Round ω A stored)} (chain : Chain (last :: rounds))
      (tools : round.SharesTools last) (previous : round.setup.previous = last.records)
      (outputs : stored round.build.situation.world = stored last.after.situation.world) :
      Chain (round :: last :: rounds)

namespace Chain

variable {last : Round ω A stored} {rounds : List (Round ω A stored)} {origin : String → Origin}

theorem sharesTools (chain : Chain (last :: rounds)) : ∀ round ∈ last :: rounds, round.SharesTools last := by
  induction rounds generalizing last with
  | nil => exact List.forall_mem_singleton.mpr ⟨rfl, rfl, rfl⟩
  | cons before rounds ih =>
    cases chain with
    | next chain tools previous outputs =>
      refine List.forall_mem_cons.mpr ⟨⟨rfl, rfl, rfl⟩, fun round member => ?_⟩
      exact (ih chain round member).trans tools.symm

/-- What is recorded at the end was left by the last round that left something of the name. -/
theorem exists_latest {β : Type} (table : Records ω → Table β) (left : Round ω A stored → List β) (nameOf : β → String)
    (fresh : ∀ name, (table {}).get? name = none)
    (put : ∀ round : Round ω A stored, table round.records =
      (left round).foldl (fun table b => table.put (nameOf b) b) (table round.setup.previous))
    (chain : Chain (last :: rounds)) {name : String} {b : β} (found : (table last.records).get? name = some b) :
    ∃ round, Latest (fun round => ∃ b ∈ left round, nameOf b = name) (last :: rounds) round ∧
      b ∈ left round ∧ nameOf b = name := by
  induction rounds generalizing last with
  | nil =>
    cases chain with
    | first noRecords =>
      rw [put, noRecords] at found
      obtain ⟨b, member, named, rfl⟩ | ⟨before, -⟩ := Table.get?_foldl_put found
      · exact ⟨last, .here ⟨b, member, named⟩, member, named⟩
      · rw [fresh] at before
        cases before
  | cons before rounds ih =>
    cases chain with
    | next chain tools previous outputs =>
      rw [put, previous] at found
      obtain ⟨b, member, named, rfl⟩ | ⟨kept, others⟩ := Table.get?_foldl_put found
      · exact ⟨last, .here ⟨b, member, named⟩, member, named⟩
      · obtain ⟨round, latest, left⟩ := ih chain kept
        exact ⟨round, .older (fun ⟨b, member, named⟩ => others b member named) latest, left⟩

theorem exists_latest_unit (chain : Chain (last :: rounds)) {name : String} {u : SourceUnit}
    (found : last.records.units.get? name = some u) :
    ∃ round, Latest (fun round => ∃ u ∈ round.after.emitted.units, u.name = name) (last :: rounds) round ∧
      u ∈ round.after.emitted.units ∧ u.name = name :=
  exists_latest Records.units (fun round => round.after.emitted.units) SourceUnit.name (fun _ => rfl) (fun _ => rfl) chain
    found

theorem exists_latest_companion (chain : Chain (last :: rounds)) {name : String} {c : Companion}
    (found : last.records.companions.get? name = some c) :
    ∃ round, Latest (fun round => ∃ c ∈ round.after.emitted.companions, c.name = name) (last :: rounds) round ∧
      c ∈ round.after.emitted.companions ∧ c.name = name :=
  exists_latest Records.companions (fun round => round.after.emitted.companions) Companion.name (fun _ => rfl)
    (fun _ => rfl) chain found

/-- What a file is at the end, it was after the last round that handled its origin. -/
theorem store_after_eq (chain : Chain (last :: rounds)) (tidy : ∀ round ∈ last :: rounds, round.Tidy origin)
    {name : String} {round : Round ω A stored} (latest : Latest (·.Handles (origin name)) (last :: rounds) round) :
    stored last.after.situation.world name = stored round.after.situation.world name := by
  induction rounds generalizing last with
  | nil =>
    cases latest with
    | here => rfl
    | older _ none => cases none
  | cons before rounds ih =>
    obtain ⟨tidyLast, tidyRest⟩ := List.forall_mem_cons.mp tidy
    cases latest with
    | here => rfl
    | older unhandled latest =>
      cases chain with
      | next chain tools previous outputs =>
        rw [tidyLast.store_after_eq unhandled, outputs, ih chain tidyRest latest]

end Chain

/-! ## A build from scratch -/

namespace Round

variable (symbols : Round ω A stored → SymbolResolver)

/-- A build from scratch that finds what the last build of a chain finds. -/
structure Repeats (scratch last : Round ω A stored) : Prop where
  fresh : scratch.setup.previous = {}
  empty : stored scratch.build.situation.world = fun _ => none
  tools : last.SharesTools scratch
  users : ∀ v ∈ scratch.users, ∃ u ∈ last.users, last.FindsAlike scratch symbols u v
  generated : ∀ c ∈ scratch.generated, c ∈ last.generated

/-- What a round has handled counts as emitted although a build from scratch may write something else of it. -/
inductive Slip (round scratch : Round ω A stored) : Origin → Prop where
  /-- The unit has the text that it had, and the transforms find something else. -/
  | unit {u v : SourceUnit} (user : u ∈ round.users) (present : v ∈ scratch.users) (name : u.name = v.name)
      (text : u.text = v.text) (changed : ¬ round.FindsAlike scratch symbols u v) : Slip round scratch (.output v.name)
  /-- The companion prints what it printed, and the transforms find something else. -/
  | printed {c d : Companion} (member : c ∈ round.plan.printed) (present : d ∈ scratch.plan.printed)
      (equivalent : d.isEquivalent c = true) (changed : ∀ u ∈ round.program.units, u.name = d.name →
        ∀ v ∈ scratch.program.units, ¬ round.FindsAlike scratch symbols u v) : Slip round scratch (.output d.name)
  /-- The companion was emitted as it stands in the program and not as it prints. -/
  | stub {d : Companion} (absent : ∀ c ∈ round.plan.printed, c.name ≠ d.name) (present : d ∈ scratch.plan.printed) :
      Slip round scratch (.output d.name)
  /-- The finished text was recorded and not written, or it was written elsewhere. -/
  | finished {c d : Companion} (member : c ∈ round.plan.finished) (present : d ∈ scratch.plan.finished)
      (equivalent : d.isEquivalent c = true)
      (elsewhere : round.mapper?.map (·.map d.name) ≠ scratch.mapper?.map (·.map d.name)) :
      Slip round scratch (.text d.name)

end Round

section

variable {scratch last : Round ω A stored} {earlier : List (Round ω A stored)} {origin : String → Origin}
  {symbols : Round ω A stored → SymbolResolver} {maps : List (String × (SourceUnit → SourceUnit))}
  {render : SourceUnit → List OutputFile} (chain : Chain (last :: earlier)) (repeats : scratch.Repeats symbols last)
  (tidy : ∀ round ∈ scratch :: last :: earlier, round.Tidy origin)
  (named : ∀ map ∈ maps, ∀ w : SourceUnit, (map.2 w).name = w.name)
  (compiles : ∀ round ∈ scratch :: last :: earlier, round.Compiles (symbols round) maps render)

include chain repeats tidy named compiles

theorem Chain.filesFrom_eq {round : Round ω A stored} (member : round ∈ last :: earlier) {u v : SourceUnit}
    (alike : round.FindsAlike scratch symbols u v) (u_mem : u ∈ round.program.units) (v_mem : v ∈ scratch.program.units)
    (source : v.isDeclaration = false) (emitted : u.name ∈ round.plan.emittedNames)
    (emittedToo : v.name ∈ scratch.plan.emittedNames) :
    round.filesFrom (.output v.name) = scratch.filesFrom (.output v.name) :=
  alike.filesFrom_eq (tidy round (List.mem_cons_of_mem _ member)) (tidy scratch (List.mem_cons_self ..)) named
    (compiles round (List.mem_cons_of_mem _ member)) (compiles scratch (List.mem_cons_self ..))
    ((chain.sharesTools round member).trans repeats.tools) u_mem v_mem source emitted emittedToo

/-- The user's units are up to date where no round slipped. -/
theorem Chain.has_unit {v : SourceUnit} (user : v ∈ scratch.users) (made : scratch.made v.name ≠ [])
    (emitted : v.name ∈ scratch.plan.emittedNames) : ∃ round, Latest (·.Handles (.output v.name)) (last :: earlier) round ∧
      (scratch.filesFrom (.output v.name) ⊆ round.filesFrom (.output v.name) ∨
        round.Slip symbols scratch (.output v.name)) := by
  obtain ⟨v_mem, source, notCompanion⟩ := scratch.mem_users.mp user
  obtain ⟨u, u_user, alike⟩ := repeats.users v user
  obtain ⟨u_mem, -, -⟩ := last.mem_users.mp u_user
  obtain ⟨name, text, -⟩ := alike.keeps
  have recorded : ∃ old, last.records.units.get? u.name = some old ∧ old.text = u.text := by
    refine Round.exists_unit u_user fun comes => ?_
    rw [alike.made_eq named (compiles last (by simp)) (compiles scratch (by simp)) repeats.tools u_mem v_mem source comes
      emitted]
    exact made
  obtain ⟨old, found, oldText⟩ := recorded
  rw [name] at found
  obtain ⟨round, recorded, left, oldName⟩ := chain.exists_latest_unit found
  obtain ⟨handling, latest, same⟩ := recorded.exists_of_holds
    (P := fun round => round.Handles (.output v.name)) (.inr (.inl ⟨old, left, oldName⟩))
  obtain rfl : handling = round := by
    refine same.resolve_right (not_not.mpr ?_)
    exact (tidy handling (List.mem_cons_of_mem _ latest.mem)).exists_emitted_unit latest.holds notCompanion
  obtain ⟨old_user, comes, -⟩ := handling.mem_emitted_units.mp left
  refine ⟨handling, latest, ?_⟩
  by_cases found : handling.FindsAlike scratch symbols old v
  · exact .inl (chain.filesFrom_eq repeats tidy named compiles latest.mem found (handling.mem_users.mp old_user).1 v_mem
      source comes emitted ▸ List.Subset.refl _)
  · exact .inr (.unit old_user user oldName (oldText.trans text) found)

/-- Companions are up to date as far as the compiler prints them, where no round slipped. -/
theorem Chain.has_printed {d : Companion} (printed : d ∈ scratch.plan.printed) (made : scratch.made d.name ≠ [])
    (emitted : d.name ∈ scratch.plan.emittedNames) : ∃ round, Latest (·.Handles (.output d.name)) (last :: earlier) round ∧
      (scratch.filesFrom (.output d.name) ⊆ round.filesFrom (.output d.name) ∨
        round.Slip symbols scratch (.output d.name)) := by
  obtain ⟨companion, statements⟩ := Round.mem_printed.mp printed
  obtain ⟨generated, root, -⟩ := Round.mem_companions.mp companion
  have tidyLast := tidy last (by simp)
  obtain ⟨c, found, equivalent⟩ := tidyLast.exists_companion (repeats.generated d generated)
    (repeats.tools.options ▸ root) (.inr statements)
  obtain ⟨round, recorded, left, c_name⟩ := chain.exists_latest_companion found
  have c_statements : c.statements.isSome = true := by
    obtain ⟨items, known⟩ := Option.isSome_iff_exists.mp statements
    exact Companion.statements_of_isEquivalent equivalent
      ((tidyLast.sole d (repeats.generated d generated)).source_eq_none known)
  obtain ⟨handling, latest, same⟩ := recorded.exists_of_holds
    (P := fun round => round.Handles (.output d.name)) (.inr (.inr ⟨c, left, c_name, c_statements⟩))
  refine ⟨handling, latest, ?_⟩
  obtain rfl | unrecorded := same
  · rw [handling.companions_after] at left
    have c_printed : c ∈ handling.plan.printed := Round.mem_printed.mpr ⟨left, c_statements⟩
    by_cases alike : ∃ u ∈ handling.program.units, u.name = d.name ∧
        ∃ v ∈ scratch.program.units, handling.FindsAlike scratch symbols u v
    · obtain ⟨u, u_mem, u_name, v, v_mem, alike⟩ := alike
      obtain ⟨name, -, declares⟩ := alike.keeps
      have v_name : v.name = d.name := name.symm.trans u_name
      obtain ⟨v', v'_mem, source, v'_name⟩ := Round.mem_emittable.mp (scratch.renders.known d.name made)
      obtain rfl := Round.unit_eq v_mem v'_mem (v_name.trans v'_name.symm)
      have comes : u.name ∈ handling.plan.emittedNames := by
        rw [u_name]
        exact Round.mem_emittedNames (Round.mem_targets.mpr (.inr ⟨c, c_printed, c_name⟩))
          (Round.mem_emittable.mpr ⟨u, u_mem, declares.trans source, u_name⟩)
      rw [← v_name] at emitted ⊢
      exact .inl (chain.filesFrom_eq repeats tidy named compiles latest.mem alike u_mem v_mem source comes emitted ▸
        List.Subset.refl _)
    · refine .inr (.printed c_printed printed equivalent fun u u_mem u_name v v_mem same => ?_)
      exact alike ⟨u, u_mem, u_name, v, v_mem, same⟩
  · refine .inr (.stub (fun c member same => unrecorded ⟨c, ?_, same⟩) printed)
    rw [handling.companions_after]
    exact (Round.mem_printed.mp member).1

omit named compiles in
/-- Finished texts are up to date, where no round slipped. -/
theorem Chain.has_finished {d : Companion} (finished : d ∈ scratch.plan.finished) :
    ∃ round, Latest (·.Handles (.text d.name)) (last :: earlier) round ∧
      (scratch.filesFrom (.text d.name) ⊆ round.filesFrom (.text d.name) ∨
        round.Slip symbols scratch (.text d.name)) := by
  obtain ⟨companion, source⟩ := List.mem_filter.mp finished
  obtain ⟨generated, root, -⟩ := Round.mem_companions.mp companion
  have tidyLast := tidy last (by simp)
  obtain ⟨c, found, equivalent⟩ := tidyLast.exists_companion (repeats.generated d generated)
    (repeats.tools.options ▸ root) (.inl source)
  obtain ⟨text, known⟩ := Option.isSome_iff_exists.mp source
  have c_source : c.source = some text := Companion.source_of_isEquivalent equivalent known
  obtain ⟨round, recorded, left, c_name⟩ := chain.exists_latest_companion found
  obtain ⟨handling, latest, same⟩ := recorded.exists_of_holds
    (P := fun round => round.Handles (.text d.name)) ⟨c, left, c_name, by rw [c_source]; rfl⟩
  obtain rfl : handling = round := by
    obtain ⟨c', member, c'_name, -⟩ := latest.holds
    exact same.resolve_right (not_not.mpr ⟨c', member, c'_name⟩)
  rw [handling.companions_after] at left
  refine ⟨handling, latest, ?_⟩
  by_cases place : handling.mapper?.map (·.map d.name) = scratch.mapper?.map (·.map d.name)
  · refine .inl fun file file_mem => ?_
    obtain ⟨mapper, mapped, d', d'_mem, d'_name, written⟩ := Round.mem_filesFrom_text.mp file_mem
    obtain rfl := (tidy scratch (by simp)).eq_of_name_eq (Round.mem_companions.mp d'_mem).1 generated d'_name
    rw [mapped, Option.map_some, Option.map_eq_some_iff] at place
    obtain ⟨mapper', mapped', place⟩ := place
    rw [← c_name] at place
    refine Round.mem_filesFrom_text.mpr ⟨mapper', mapped', c, left, c_name, ?_⟩
    have c_sole := (tidy handling (List.mem_cons_of_mem _ latest.mem)).sole c (Round.mem_companions.mp left).1
    have d_sole := (tidy scratch (by simp)).sole d' generated
    have shares := (chain.sharesTools handling latest.mem).trans repeats.tools
    rwa [Round.finishedFiles_eq shares (place.trans (by rw [c_name])) c_source known c_sole d_sole]
  · refine .inr (.finished (List.mem_filter.mpr ⟨left, by rw [c_source]; rfl⟩) finished equivalent place)

omit repeats named compiles in
/-- What the last round that handled an origin has settled is settled for good. -/
theorem Chain.has_of_latest {o : Origin} {round : Round ω A stored}
    (latest : Latest (·.Handles o) (last :: earlier) round)
    (has : (stored round.after.situation.world).Has (scratch.filesFrom o)) :
    (stored last.after.situation.world).Has (scratch.filesFrom o) := by
  intro file written
  have handled : Latest (·.Handles (origin file.1)) (last :: earlier) round := by
    rwa [(tidy scratch (by simp)).origins o file written]
  rw [chain.store_after_eq (fun round member => tidy round (List.mem_cons_of_mem _ member)) handled]
  exact has file written

end

/-! ## Chains of the compiler of outlines -/

namespace Round

variable {round : Round ω A stored} {origin : String → Origin}

/-- One by one, companions that are not being printed do not come out. -/
theorem filesFrom_of_perFile (perFile : round.plan.batching = .perFile) {name : String}
    (companion : Path.isCompanion name = true) (unprinted : ∀ c ∈ round.plan.printed, c.name ≠ name) :
    round.filesFrom (.output name) = [] := by
  rw [filesFrom, if_neg]
  intro emitted
  rw [EmitPlan.emittedNames, perFile] at emitted
  obtain ⟨u, changed, rfl⟩ | ⟨c, printed, same⟩ := mem_targets.mp emitted
  · obtain ⟨-, -, user⟩ := round.mem_users.mp (mem_changedUnits.mp changed).1
    rw [user] at companion
    cases companion
  · exact unprinted c printed same

theorem tidy_of_forall (each : (∀ name ∈ round.plan.emittedNames, ∀ file ∈ round.kept name, origin file.1 = .output name) ∧
      (∀ mapper ∈ round.mapper?, ∀ c ∈ round.plan.companions,
        ∀ file ∈ round.finishedFiles mapper c, origin file.1 = .text c.name) ∧
      (∀ file ∈ round.files, ∀ other ∈ round.files, other.1 = file.1 → other.2 = file.2) ∧
      (round.generated.map (·.name)).Nodup ∧ (∀ c ∈ round.generated, c.statements.isSome = !c.source.isSome) ∧
      ∀ c ∈ round.plan.printed, Path.isCompanion c.name = true) : round.Tidy origin := by
  obtain ⟨output, text, single, distinct, sole, printed⟩ := each
  refine ⟨fun o file written => ?_, single, distinct, sole, printed⟩
  cases o with
  | output name =>
    obtain ⟨emitted, kept⟩ := mem_filesFrom_output.mp written
    exact output name emitted file kept
  | text name =>
    obtain ⟨mapper, mapped, c, changed, rfl, finished⟩ := mem_filesFrom_text.mp written
    exact text mapper mapped c changed file finished

end Round

namespace Outline

/-- The compiler of outlines resolves names in the unit alone. -/
def localSymbols (_ : Round World Analysis Outline.stored) : SymbolResolver :=
  .localOnly

section

variable {settings : Settings} {overrides : Overrides World} {options : Options} {companions : List Companion}
  {previous : Records World} {units : List SourceUnit} {world : World} {separate : settings.bundle = none}
  {distinct : (units.map (·.name)).Nodup}
  {making : Making (pipeline settings overrides options companions previous units) units (begun world)}
  (succeeds : (emission settings overrides options companions previous units world).1.isOk = true)

theorem round_compiles :
    (round settings overrides options companions previous units world separate distinct making succeeds).Compiles
      .localOnly [] (outputs settings options false) where
  maps := rfl
  made u member source _ := by
    have present : u ∈ emitted units none := by
      refine List.mem_filter.mpr ⟨member, ?_⟩
      rw [source]
      rfl
    obtain ⟨final, found, middle, ended, before, after, -⟩ :=
      making.transforms.apply u present (begun world) making.steady
    cases after
    refine ⟨_, _, _, before, ?_⟩
    change handed settings options units false making.final (some u.name) = _
    rw [handed, emitted_some distinct present, List.flatMap_singleton]

/-- Rounds with the same options share everything but the world. -/
theorem round_sharesTools {others : List Companion} {earlier : Records World} {otherUnits : List SourceUnit}
    {otherWorld : World} {otherDistinct : (otherUnits.map (·.name)).Nodup}
    {otherMaking : Making (pipeline settings overrides options others earlier otherUnits) otherUnits (begun otherWorld)}
    (otherSucceeds : (emission settings overrides options others earlier otherUnits otherWorld).1.isOk = true) :
    (round settings overrides options companions previous units world separate distinct making succeeds).SharesTools
      (round settings overrides options others earlier otherUnits otherWorld separate otherDistinct otherMaking
        otherSucceeds) where
  options := by
    rw [round_setup, round_setup]
    rfl
  files := by
    rw [round_setup, round_setup]
    rfl
  overrides := by
    rw [round_setup, round_setup]
    rfl

/-- A build from scratch with the same units and companions repeats a build, if its units are found alike. -/
theorem round_repeats {scratchWorld : World}
    {scratchMaking : Making (pipeline settings overrides options companions {} units) units (begun scratchWorld)}
    (scratch : (emission settings overrides options companions {} units scratchWorld).1.isOk = true)
    (empty : Outline.stored scratchWorld = fun _ => none)
    (alike : ∀ v ∈ units, Path.isCompanion v.name = false →
      (round settings overrides options companions previous units world separate distinct making succeeds).FindsAlike
        (round settings overrides options companions {} units scratchWorld separate distinct scratchMaking scratch)
        localSymbols v v) :
    (round settings overrides options companions {} units scratchWorld separate distinct scratchMaking scratch).Repeats
      localSymbols
      (round settings overrides options companions previous units world separate distinct making succeeds) where
  fresh := by
    rw [round_setup]
    rfl
  empty := by
    rw [round_world]
    exact empty
  tools := round_sharesTools succeeds scratch
  users v user := by
    obtain ⟨member, source, notCompanion⟩ := Round.mem_users _ |>.mp user
    rw [round_units] at member
    refine ⟨v, Round.mem_users _ |>.mpr ⟨?_, source, notCompanion⟩, alike v member notCompanion⟩
    rw [round_units]
    exact member
  generated c generated := by
    rw [round_generated] at generated ⊢
    exact generated

end

/-- Where nothing is lowered or inlined, a unit is found alike as soon as it is the same with its companion filled in. -/
theorem findsAlike_of_plain {round scratch : Round World Analysis Outline.stored} (plain : Plain round.setup.options)
    {u : SourceUnit} (statements : Companion.statementsFor? round.plan.companions u.name =
      Companion.statementsFor? scratch.plan.companions u.name) : round.FindsAlike scratch localSymbols u u where
  statements := statements
  tree := by
    change u.detached.filled round.plan.companions _ = u.detached.filled scratch.plan.companions _
    have same : Companion.statementsFor? round.plan.companions u.detached.name =
      Companion.statementsFor? scratch.plan.companions u.detached.name := statements
    rw [SourceUnit.filled, SourceUnit.filled, same]
  resources _ wanted := by
    rw [plain.inlining] at wanted
    cases wanted
  requests _ wanted := by
    rw [plain.lowering] at wanted
    cases wanted
  symbols _ _ _ := rfl
  core wanted := by
    rw [plain.decorators] at wanted
    cases wanted

theorem findsAlike_of_user {round scratch : Round World Analysis Outline.stored} {origin : String → Origin}
    (plain : Plain round.setup.options) (tidy : round.Tidy origin) (tidyScratch : scratch.Tidy origin) {u : SourceUnit}
    (user : Path.isCompanion u.name = false) : round.FindsAlike scratch localSymbols u u := by
  refine findsAlike_of_plain plain ?_
  rw [tidy.statementsFor?_eq_none user, tidyScratch.statementsFor?_eq_none user]

/-- Where nothing is lowered or inlined and the units are the same, a round that printed all companions slips neither with
units nor with companions that are printed, and with finished texts only where it put them elsewhere. -/
theorem not_slip_of_plain {round scratch : Round World Analysis Outline.stored} {origin : String → Origin}
    (plain : Plain round.setup.options) (tidy : round.Tidy origin) (tidyScratch : scratch.Tidy origin)
    (units : round.program.units = scratch.program.units)
    (printed : ∀ d ∈ scratch.plan.printed, (∃ u ∈ round.program.units, u.name = d.name) ∧
      (∃ c ∈ round.plan.printed, c.name = d.name) ∧
        ∀ c ∈ round.plan.printed, d.isEquivalent c = true → c.statements = d.statements)
    (finished : ∀ c ∈ round.plan.finished, round.mapper?.map (·.map c.name) = scratch.mapper?.map (·.map c.name))
    (o : Origin) : ¬ round.Slip localSymbols scratch o := by
  intro slip
  cases slip with
  | @unit u v user present name text changed =>
    obtain ⟨u_mem, -, notCompanion⟩ := round.mem_users.mp user
    obtain ⟨v_mem, -, -⟩ := scratch.mem_users.mp present
    rw [units] at u_mem
    obtain rfl := Round.unit_eq u_mem v_mem name
    exact changed (findsAlike_of_user plain tidy tidyScratch notCompanion)
  | @printed c d member present equivalent changed =>
    obtain ⟨⟨u, u_mem, u_name⟩, -, statements⟩ := printed d present
    refine changed u u_mem u_name u (units ▸ u_mem) (findsAlike_of_plain plain ?_)
    obtain ⟨c_mem, -⟩ := Round.mem_printed.mp member
    obtain ⟨d_mem, -⟩ := Round.mem_printed.mp present
    calc Companion.statementsFor? round.plan.companions u.name = c.statements := by
          rw [u_name, Companion.name_of_isEquivalent equivalent]
          exact tidy.statementsFor?_eq c_mem
      _ = d.statements := statements c member equivalent
      _ = Companion.statementsFor? scratch.plan.companions u.name := by
          rw [u_name]
          exact (tidyScratch.statementsFor?_eq d_mem).symm
  | @stub d absent present =>
    obtain ⟨-, ⟨c, member, same⟩, -⟩ := printed d present
    exact absent c member same
  | @finished c d member present equivalent elsewhere =>
    rw [Companion.name_of_isEquivalent equivalent] at elsewhere
    exact elsewhere (finished c member)

/-! ## Three builds -/

set_option maxRecDepth 100000 in
def firstRound : Round World Analysis Outline.stored :=
  round {} {} plainOptions (companionsOf "ɵold" "{}") {} twoUnits {} rfl nodup_twoUnits (plain_plainOptions.making ..)
    (by decide +kernel)

set_option maxRecDepth 100000 in
/-- The second build, after the factory has changed. -/
def secondRound : Round World Analysis Outline.stored :=
  round {} {} plainOptions (companionsOf "ɵnew" "{}") firstRound.records twoUnits firstRound.after.situation.world rfl
    nodup_twoUnits (plain_plainOptions.making ..) (by decide +kernel)

set_option maxRecDepth 100000 in
/-- The third build, after the summary has changed. -/
def thirdRound : Round World Analysis Outline.stored :=
  round {} {} plainOptions (companionsOf "ɵnew" "[]") secondRound.records twoUnits secondRound.after.situation.world rfl
    nodup_twoUnits (plain_plainOptions.making ..) (by decide +kernel)

set_option maxRecDepth 100000 in
/-- What the second build finds, built from scratch. -/
def secondScratch : Round World Analysis Outline.stored :=
  round {} {} plainOptions (companionsOf "ɵnew" "{}") {} twoUnits {} rfl nodup_twoUnits (plain_plainOptions.making ..)
    (by decide +kernel)

set_option maxRecDepth 100000 in
/-- What the third build finds, built from scratch. -/
def thirdScratch : Round World Analysis Outline.stored :=
  round {} {} plainOptions (companionsOf "ɵnew" "[]") {} twoUnits {} rfl nodup_twoUnits (plain_plainOptions.making ..)
    (by decide +kernel)

def originOf (name : String) : Origin :=
  if name = "/a.js" then .output "/a.ts"
  else if name = "/a.axfactory.js" then .output "/a.axfactory.ts"
  else .text "/a.axsummary.json"

set_option maxRecDepth 100000 in
theorem tidy_rounds : ∀ round ∈ [thirdScratch, secondScratch, thirdRound, secondRound, firstRound],
    round.Tidy originOf := by
  simp only [List.forall_mem_cons]
  exact ⟨Round.tidy_of_forall (by decide +kernel), Round.tidy_of_forall (by decide +kernel),
    Round.tidy_of_forall (by decide +kernel), Round.tidy_of_forall (by decide +kernel),
    Round.tidy_of_forall (by decide +kernel), List.forall_mem_nil _⟩

theorem tidy_secondRounds : ∀ round ∈ [secondScratch, secondRound, firstRound], round.Tidy originOf := by
  have known : [secondScratch, secondRound, firstRound] ⊆
      [thirdScratch, secondScratch, thirdRound, secondRound, firstRound] := by simp
  exact fun round member => tidy_rounds round (known member)

theorem tidy_thirdRounds : ∀ round ∈ [thirdScratch, thirdRound, secondRound, firstRound], round.Tidy originOf := by
  have known : [thirdScratch, thirdRound, secondRound, firstRound] ⊆
      [thirdScratch, secondScratch, thirdRound, secondRound, firstRound] := by simp
  exact fun round member => tidy_rounds round (known member)

theorem chain_secondRound : Chain [secondRound, firstRound] :=
  .next (.first rfl) (round_sharesTools ..) rfl (congrArg Outline.stored (round_world ..))

theorem chain_thirdRound : Chain [thirdRound, secondRound, firstRound] :=
  .next chain_secondRound (round_sharesTools ..) rfl (congrArg Outline.stored (round_world ..))

set_option maxRecDepth 100000 in
theorem firstRound_not_slip (o : Origin) : ¬ firstRound.Slip localSymbols secondScratch o := by
  have evaluated : (∀ d ∈ secondScratch.plan.printed, (∃ u ∈ firstRound.program.units, u.name = d.name) ∧
        (∃ c ∈ firstRound.plan.printed, c.name = d.name) ∧ ∀ c ∈ firstRound.plan.printed, d.isEquivalent c ≠ true) ∧
      ∀ c ∈ firstRound.plan.finished, firstRound.mapper?.map (·.map c.name) = secondScratch.mapper?.map (·.map c.name) := by
    decide +kernel
  obtain ⟨printed, finished⟩ := evaluated
  refine not_slip_of_plain plain_plainOptions (tidy_secondRounds firstRound (by simp))
    (tidy_secondRounds secondScratch (by simp)) ((round_units ..).trans (round_units ..).symm) (fun d present => ?_)
    finished o
  obtain ⟨known, printedToo, different⟩ := printed d present
  exact ⟨known, printedToo, fun c member same => (different c member same).elim⟩

set_option maxRecDepth 100000 in
theorem secondRound_not_slip (o : Origin) : ¬ secondRound.Slip localSymbols secondScratch o := by
  have evaluated : (∀ d ∈ secondScratch.plan.printed, (∃ u ∈ secondRound.program.units, u.name = d.name) ∧
        ∃ c ∈ secondRound.plan.printed, c.name = d.name) ∧
      ∀ c ∈ secondRound.plan.finished,
        secondRound.mapper?.map (·.map c.name) = secondScratch.mapper?.map (·.map c.name) := by
    decide +kernel
  obtain ⟨printed, finished⟩ := evaluated
  refine not_slip_of_plain plain_plainOptions (tidy_secondRounds secondRound (by simp))
    (tidy_secondRounds secondScratch (by simp)) ((round_units ..).trans (round_units ..).symm) (fun d present => ?_)
    finished o
  obtain ⟨known, printedToo⟩ := printed d present
  refine ⟨known, printedToo, fun c member same => ?_⟩
  -- Both builds are given the same companions.
  have c_mem : c ∈ companionsOf "ɵnew" "{}" := (Round.mem_companions.mp (Round.mem_printed.mp member).1).1
  have d_mem : d ∈ secondScratch.generated := (Round.mem_companions.mp (Round.mem_printed.mp present).1).1
  rw [(tidy_secondRounds secondScratch (by simp)).eq_of_name_eq c_mem d_mem (Companion.name_of_isEquivalent same).symm]

theorem compiles_secondRounds : ∀ round ∈ [secondScratch, secondRound, firstRound],
    round.Compiles (localSymbols round) [] (outputs {} plainOptions false) := by
  simp only [List.forall_mem_cons]
  exact ⟨round_compiles .., round_compiles .., round_compiles .., List.forall_mem_nil _⟩

theorem compiles_thirdRounds : ∀ round ∈ [thirdScratch, thirdRound, secondRound, firstRound],
    round.Compiles (localSymbols round) [] (outputs {} plainOptions false) := by
  simp only [List.forall_mem_cons]
  exact ⟨round_compiles .., round_compiles .., round_compiles .., round_compiles .., List.forall_mem_nil _⟩

set_option maxRecDepth 100000 in
/-- The third build hands nothing to the compiler and records the summary all the same. -/
theorem thirdRound_slip : thirdRound.Handles (.text "/a.axsummary.json") ∧
    thirdRound.Slip localSymbols thirdScratch (.text "/a.axsummary.json") := by
  have member : writtenSummary "[]" ∈ companionsOf "ɵnew" "[]" := List.mem_cons_of_mem _ (List.mem_singleton_self _)
  have changed : writtenSummary "[]" ∈ thirdRound.plan.companions :=
    Round.mem_companions.mpr ⟨member, by decide +kernel⟩
  have present : writtenSummary "[]" ∈ thirdScratch.plan.companions :=
    Round.mem_companions.mpr ⟨member, by decide +kernel⟩
  constructor
  · refine ⟨writtenSummary "[]", ?_, rfl, rfl⟩
    rw [Round.companions_after]
    exact changed
  · exact .finished (List.mem_filter.mpr ⟨changed, rfl⟩) (List.mem_filter.mpr ⟨present, rfl⟩)
      (Companion.isEquivalent_self (.inl rfl)) (by decide +kernel)

/-! ## A template that changes -/

/-- Options under which resources are put in place and nothing else is done. -/
def labelOptions : Options :=
  { plainOptions with enableResourceInlining := true }

/-- The text of the template in a world. -/
def labelText (world : World) : String :=
  (world.memory.files.get? "/label.html").getD ""

/-- There is one resource. -/
def labelOverrides : Overrides World where
  resourceFile := some fun _ _ => pure (some "/label.html")
  readResource := some fun _ => do pure (.ready (labelText (← get)))

/-- Units are printed from their trees. -/
def labelSettings : Settings where
  tree? name text := some (.plain name text)

/-- A component with one property in its argument. -/
def labelUnit (property : Property) : SourceUnit where
  name := "/label.ts"
  text := "label"
  isDeclaration := false
  items := [
    ⟨⟨0, 10, some 0⟩, .imports { specifiers := [.named "Component" none false], source := coreModule }⟩,
    ⟨⟨10, 90, some 0⟩, .exportDecl (.classDecl {
      name := "Label"
      decorators := [.call ⟨11, 50, some 0⟩ (.ident ⟨11, 20, some 0⟩ "Component") [.object ⟨21, 49, some 0⟩ [property]]] })⟩]

def labelSource : SourceUnit :=
  labelUnit (.named "templateUrl" (.string "./label.html"))

theorem labelHost_get (previous : Records World) (file url : String) (situation : Situation World) :
    ((setupWith labelSettings labelOverrides labelOptions [] previous).host.resources.get file url).run.run situation =
      (.ok (labelText situation.world), situation) :=
  rfl

/-- The transforms put the text of the template in place. -/
def labelMaking (previous : Records World) (text : String) (start : Situation World)
    (reads : labelText start.world = text) :
    Making (pipeline labelSettings labelOverrides labelOptions [] previous [labelSource]) [labelSource] start where
  Steady situation := labelText situation.world = text
  final _ := labelUnit (.named "template" (.string text))
  found _ := {}
  transforms := by
    have emits : emitted [labelSource] none = [labelSource] := rfl
    rw [emits]
    refine ⟨List.forall_mem_singleton.mpr fun situation steady => ?_, List.forall_mem_singleton.mpr rfl⟩
    subst steady
    exact ⟨_, {}, situation, situation, rfl, rfl, rfl, rfl⟩
  notes _ _ steady := steady
  writes _ _ _ _ steady := steady
  steady := reads

/-- A world with the template. -/
def labelWorld (text : String) : World :=
  { memory := { files := [("/label.html", text)] } }

set_option maxRecDepth 100000 in
def labelFirst : Round World Analysis Outline.stored :=
  round labelSettings labelOverrides labelOptions [] {} [labelSource] (labelWorld "one") rfl (List.nodup_singleton _)
    (labelMaking {} "one" _ rfl) (by decide +kernel)

/-- What the first build has left, with another text of the template. -/
def labelChanged : World :=
  { labelFirst.after.situation.world with
    memory := { labelFirst.after.situation.world.memory with files := [("/label.html", "two")] } }

set_option maxRecDepth 100000 in
/-- The second build, after the template has changed. -/
def labelSecond : Round World Analysis Outline.stored :=
  round labelSettings labelOverrides labelOptions [] labelFirst.records [labelSource] labelChanged rfl
    (List.nodup_singleton _) (labelMaking labelFirst.records "two" _ rfl) (by decide +kernel)

set_option maxRecDepth 100000 in
def labelScratch : Round World Analysis Outline.stored :=
  round labelSettings labelOverrides labelOptions [] {} [labelSource] (labelWorld "two") rfl (List.nodup_singleton _)
    (labelMaking {} "two" _ rfl) (by decide +kernel)

set_option maxRecDepth 100000 in
theorem tidy_labelRounds : ∀ round ∈ [labelScratch, labelSecond, labelFirst],
    round.Tidy fun _ => .output "/label.ts" := by
  simp only [List.forall_mem_cons]
  exact ⟨Round.tidy_of_forall (by decide +kernel), Round.tidy_of_forall (by decide +kernel),
    Round.tidy_of_forall (by decide +kernel), List.forall_mem_nil _⟩

theorem compiles_labelRounds : ∀ round ∈ [labelScratch, labelSecond, labelFirst],
    round.Compiles (localSymbols round) [] (outputs labelSettings labelOptions false) := by
  simp only [List.forall_mem_cons]
  exact ⟨round_compiles .., round_compiles .., round_compiles .., List.forall_mem_nil _⟩

theorem stored_labelChanged : Outline.stored labelChanged = Outline.stored labelFirst.after.situation.world :=
  rfl

theorem chain_labelSecond : Chain [labelSecond, labelFirst] :=
  .next (.first rfl) (round_sharesTools ..) rfl ((congrArg Outline.stored (round_world ..)).trans stored_labelChanged)

/-- Where the template has the text that it had, it loads as it did. -/
theorem finds_of_labelText {previous : Records World} {u : SourceUnit} {situation other : Situation World}
    (same : labelText situation.world = labelText other.world) {log : Resource.Log}
    (finds : Resource.Finds (setupWith labelSettings labelOverrides labelOptions [] previous).host.resources u situation
      log) :
    Resource.Finds (setupWith labelSettings labelOverrides labelOptions [] previous).host.resources u other log := by
  obtain ⟨⟨after, loads⟩, refilled⟩ := finds
  refine ⟨⟨other, ?_⟩, refilled⟩
  clear refilled
  induction loads with
  | done => exact .done other
  | @next state middle after url text log first rest ih =>
    rw [labelHost_get] at first
    cases first
    refine .next ?_ (ih same)
    rw [labelHost_get, same]

theorem findsAlike_of_labelText {round scratch : Round World Analysis Outline.stored} {previous : Records World}
    (setup : round.setup = setupWith labelSettings labelOverrides labelOptions [] previous)
    (own : round.plan.companions = []) (ownToo : scratch.plan.companions = [])
    (same : labelText round.start.world = labelText scratch.start.world) (u : SourceUnit) :
    round.FindsAlike scratch localSymbols u u where
  statements := by
    change Companion.statementsFor? round.plan.companions u.name = Companion.statementsFor? scratch.plan.companions u.name
    rw [own, ownToo]
  tree := by
    change u.detached.filled round.plan.companions _ = u.detached.filled scratch.plan.companions _
    rw [own, ownToo]
  resources _ _ log finds := by
    rw [setup] at finds ⊢
    exact finds_of_labelText same finds
  requests _ wanted := by
    rw [setup] at wanted
    cases wanted
  symbols _ _ _ := rfl
  core wanted := by
    rw [setup] at wanted
    cases wanted

theorem labelSecond_findsAlike : labelSecond.FindsAlike labelScratch localSymbols labelSource labelSource := by
  have second : labelText labelSecond.start.world = "two" := rfl
  have scratch : labelText labelScratch.start.world = "two" := rfl
  exact findsAlike_of_labelText (round_setup ..) rfl rfl (second.trans scratch.symm) labelSource

set_option maxRecDepth 100000 in
/-- The unit has the text that it had, and another template. -/
theorem labelFirst_slip : labelFirst.Slip localSymbols labelScratch (.output labelSource.name) := by
  have notCompanion : Path.isCompanion labelSource.name = false := by decide +kernel
  have mem_users {round : Round World Analysis Outline.stored} (units : round.program.units = [labelSource]) :
      labelSource ∈ round.users :=
    round.mem_users.mpr ⟨units ▸ List.mem_singleton_self _, rfl, notCompanion⟩
  have user : labelSource ∈ labelFirst.users := mem_users (round_units ..)
  have present : labelSource ∈ labelScratch.users := mem_users (round_units ..)
  have evaluated : labelSource.name ∈ labelFirst.plan.emittedNames ∧ labelSource.name ∈ labelScratch.plan.emittedNames ∧
      (labelFirst.made labelSource.name).map (·.text) ≠ (labelScratch.made labelSource.name).map (·.text) := by
    decide +kernel
  obtain ⟨emitted, emittedToo, different⟩ := evaluated
  refine .unit user present rfl rfl fun alike => ?_
  have same := alike.made_eq (List.forall_mem_nil _) (compiles_labelRounds labelFirst (by simp))
    (compiles_labelRounds labelScratch (by simp)) (round_sharesTools ..) (labelFirst.mem_users.mp user).1
    (labelScratch.mem_users.mp present).1 rfl emitted emittedToo
  exact different (congrArg (List.map (·.text)) same)

set_option maxRecDepth 100000 in
theorem labelSecond_not_handles : ¬ labelSecond.Handles (.output labelSource.name) := by
  have nothing : labelSecond.filesFrom (.output labelSource.name) = [] ∧ labelSecond.after.emitted.units.isEmpty = true ∧
      labelSecond.after.emitted.companions.isEmpty = true := by
    decide +kernel
  obtain ⟨files, units, companions⟩ := nothing
  rintro (written | ⟨u, member, -⟩ | ⟨c, member, -⟩)
  · exact written files
  · rw [List.isEmpty_iff.mp units] at member
    cases member
  · rw [List.isEmpty_iff.mp companions] at member
    cases member

/-- The script of the unit with a template. -/
def labelScript (text : String) : String × String :=
  ("/label.js", (labelUnit (.named "template" (.string text))).print.text)

set_option maxRecDepth 100000 in
theorem labelFirst_stale :
    ¬ (Outline.stored labelFirst.after.situation.world).Has (labelScratch.filesFrom (.output labelSource.name)) := by
  have evaluated : labelScript "two" ∈ labelScratch.filesFrom (.output labelSource.name) ∧
      Outline.stored labelFirst.after.situation.world "/label.js" ≠ some (labelScript "two").2 := by
    decide +kernel
  exact fun has => evaluated.2 (has _ evaluated.1)

end Outline

end CompanionBuild
