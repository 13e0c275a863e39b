import CompanionBuild.Proofs.Within
import CompanionBuild.Resource.Loader

/-! # What a computation loads

A computation that touches the state only to load resources leaves a log of them: the URLs in the order in which they
were loaded, each with the text it gave. The value of such a computation is described together with its log, and the
description of a whole is put together from those of its parts. The log is all that the value rests on: in any state in
which the same URLs give the same texts, the computation comes to the same value.
-/

namespace CompanionBuild.Resource

/-- The URLs that were loaded, in order, each with its text. -/
abbrev Log := List (String × String)

variable {σ α β : Type} {load : String → ResourceM σ String}

/-- Loading the URLs of a log one after the other gives the texts of the log and leads from one state to another. -/
inductive Loads (load : String → ResourceM σ String) : σ → Log → σ → Prop where
  | done (state : σ) : Loads load state [] state
  | next {state middle after : σ} {url text : String} {log : Log}
      (first : (load url).run.run state = (.ok text, middle)) (rest : Loads load middle log after) :
      Loads load state ((url, text) :: log) after

theorem Loads.append {state middle after : σ} {log others : Log} (first : Loads load state log middle)
    (rest : Loads load middle others after) : Loads load state (log ++ others) after := by
  induction first with
  | done => exact rest
  | next here _ ih => exact .next here (ih rest)

theorem loads_append_iff {state after : σ} {log others : Log} :
    Loads load state (log ++ others) after ↔ ∃ middle, Loads load state log middle ∧ Loads load middle others after := by
  refine ⟨fun loads => ?_, fun ⟨_, first, rest⟩ => first.append rest⟩
  induction log generalizing state with
  | nil => exact ⟨state, .done state, loads⟩
  | cons entry log ih =>
    cases loads with
    | next here loads =>
      obtain ⟨middle, first, rest⟩ := ih loads
      exact ⟨middle, .next here first, rest⟩

/-- Elements that are treated one after the other, each with its share of the log. -/
inductive InTurn (R : α → Log → β → Prop) : List α → Log → List β → Prop where
  | nil : InTurn R [] [] []
  | cons {a : α} {b : β} {list : List α} {made : List β} {log rest : Log} (first : R a log b)
      (others : InTurn R list rest made) : InTurn R (a :: list) (log ++ rest) (b :: made)

namespace InTurn

variable {R : α → Log → β → Prop} {list : List α} {made : List β} {log : Log}

theorem singleton {a : α} {b : β} (related : R a log b) : InTurn R [a] log [b] := by
  simpa using InTurn.cons related .nil

theorem append {list' : List α} {made' : List β} {log' : Log} (first : InTurn R list log made)
    (rest : InTurn R list' log' made') : InTurn R (list ++ list') (log ++ log') (made ++ made') := by
  induction first with
  | nil => exact rest
  | cons here _ ih =>
    rw [List.append_assoc]
    exact .cons here ih

theorem exists_of_mem (related : InTurn R list log made) {b : β} (mem : b ∈ made) : ∃ a ∈ list, ∃ part, R a part b := by
  induction related with
  | nil => cases mem
  | cons first _ ih =>
    obtain rfl | mem := List.mem_cons.mp mem
    · exact ⟨_, List.mem_cons_self .., _, first⟩
    · obtain ⟨a, isIn, here⟩ := ih mem
      exact ⟨a, List.mem_cons_of_mem _ isIn, here⟩

/-- A condition on the elements can be taken out of the relation. -/
theorem and_iff {Q : α → Prop} :
    InTurn (fun a log b => R a log b ∧ Q a) list log made ↔ InTurn R list log made ∧ ∀ a ∈ list, Q a := by
  constructor
  · intro related
    induction related with
    | nil => exact ⟨.nil, List.forall_mem_nil _⟩
    | cons first _ ih => exact ⟨.cons first.1 ih.1, List.forall_mem_cons.mpr ⟨first.2, ih.2⟩⟩
  · rintro ⟨related, holds⟩
    induction related with
    | nil => exact .nil
    | cons first _ ih =>
      obtain ⟨here, holds⟩ := List.forall_mem_cons.mp holds
      exact .cons ⟨first, here⟩ (ih holds)

end InTurn

/-- The value of the computation rests on the log alone: wherever the log can be loaded, the computation loads it and
comes to the value. -/
def Replays (load : String → ResourceM σ String) (step : ResourceM σ α) (log : Log) (value : α) : Prop :=
  ∀ state after, Loads load state log after → step.run.run state = (.ok value, after)

/-- Whenever the computation succeeds, it has loaded the URLs of a log and done nothing else to the state, its value fits
the log, and it rests on the log alone. -/
def Gives (load : String → ResourceM σ String) (step : ResourceM σ α) (P : Log → α → Prop) : Prop :=
  ∀ state value after, step.run.run state = (.ok value, after) →
    ∃ log, Loads load state log after ∧ P log value ∧ Replays load step log value

namespace Gives

variable {P : Log → α → Prop} {Q : Log → β → Prop}

theorem pure {value : α} (fits : P [] value) : Gives load (Pure.pure value) P := by
  intro state result after ran
  cases ran
  refine ⟨[], .done _, fits, fun other last loads => ?_⟩
  cases loads
  rfl

theorem throw (error : TransformError) : Gives load (MonadExcept.throw error) P := by
  intro state result after ran
  cases ran

theorem loading (url : String) : Gives load (load url) fun log text => log = [(url, text)] := by
  intro state text after ran
  refine ⟨_, .next ran (.done _), rfl, fun other last loads => ?_⟩
  cases loads with
  | next here rest =>
    cases rest
    exact here

theorem bind {step : ResourceM σ α} {next : α → ResourceM σ β} (first : Gives load step P)
    (rest : ∀ value, Gives load (next value) fun log result => ∀ before, P before value → Q (before ++ log) result) :
    Gives load (step >>= next) Q := by
  intro state result after ran
  obtain ⟨value, middle, ofStep, ofNext⟩ := run_bind_ok ran
  obtain ⟨before, loaded, fits, replays⟩ := first state value middle ofStep
  obtain ⟨log, loadedRest, fitsRest, replaysRest⟩ := rest value middle result after ofNext
  refine ⟨before ++ log, loaded.append loadedRest, fitsRest before fits, fun other last loads => ?_⟩
  obtain ⟨between, here, there⟩ := loads_append_iff.mp loads
  rw [run_bind_of_ok (replays other between here), replaysRest between last there]

/-- A computation followed by a function. -/
theorem map {step : ResourceM σ α} {f : α → β} (first : Gives load step P)
    (fits : ∀ log value, P log value → Q log (f value)) : Gives load (step >>= fun value => Pure.pure (f value)) Q := by
  refine bind first fun value => pure fun log ofValue => ?_
  rw [List.append_nil]
  exact fits log value ofValue

theorem mapM {R : α → Log → β → Prop} {f : α → ResourceM σ β} (each : ∀ a, Gives load (f a) (R a)) (list : List α) :
    Gives load (list.mapM f) (InTurn R list) := by
  induction list with
  | nil => exact pure .nil
  | cons a rest ih =>
    rw [List.mapM_cons]
    exact bind (each a) fun b => map ih fun log made others before first => .cons first others

end Gives

end CompanionBuild.Resource
