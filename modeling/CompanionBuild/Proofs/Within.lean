import CompanionBuild.Dialogue
import CompanionBuild.Transform
import Mathlib.Data.List.Forall2
import Mathlib.Order.Defs.Unbundled

/-! # Computations that stay within a relation

A computation stays within a relation when it relates every state it starts in to the state it ends in. For a preorder
this passes from the parts of a computation to the whole, failures included, since a failure undoes nothing. A dialogue
stays within a relation as soon as the answers and every change of the world do: what the part supplied from outside
does on its own is of no account.
-/

namespace CompanionBuild

/-- Whatever state a computation starts in, it ends in a related one. -/
def Within {σ α : Type} (R : σ → σ → Prop) (step : StateM σ α) : Prop :=
  ∀ state, R state (step.run state).2

/-- Two states that look the same through a view. -/
def Alike {σ β : Type} (view : σ → β) (before after : σ) : Prop :=
  view after = view before

instance {σ β : Type} (view : σ → β) : IsPreorder σ (Alike view) where
  refl _ := rfl
  trans _ _ _ first second := second.trans first

/-- A property that holds of the second state if it holds of the first. -/
def Preserving {σ : Type} (P : σ → Prop) (before after : σ) : Prop :=
  P before → P after

instance {σ : Type} (P : σ → Prop) : IsPreorder σ (Preserving P) where
  refl _ := id
  trans _ _ _ first second := second ∘ first

/-- A computation goes on where its first part ended. -/
theorem run_bind {σ α β : Type} {step : StateM σ α} {next : α → StateM σ β} {state middle : σ} {value : α}
    (ran : step.run state = (value, middle)) : (step >>= next).run state = (next value).run middle := by
  rw [StateT.run_bind, ran]
  rfl

theorem run_bind_of_ok {σ ε α β : Type} {step : ExceptT ε (StateM σ) α} {next : α → ExceptT ε (StateM σ) β}
    {state middle : σ} {value : α} (ran : step.run.run state = (.ok value, middle)) :
    (step >>= next).run.run state = (next value).run.run middle := by
  rw [ExceptT.run_bind, run_bind ran]

theorem run_bind_of_error {σ ε α β : Type} {step : ExceptT ε (StateM σ) α} {next : α → ExceptT ε (StateM σ) β}
    {state middle : σ} {error : ε} (ran : step.run.run state = (.error error, middle)) :
    (step >>= next).run.run state = (.error error, middle) := by
  rw [ExceptT.run_bind, run_bind ran]
  rfl

/-- Of a computation that succeeds every part succeeds. -/
theorem run_bind_ok {σ ε α β : Type} {step : ExceptT ε (StateM σ) α} {next : α → ExceptT ε (StateM σ) β}
    {state after : σ} {value : β} (success : (step >>= next).run.run state = (.ok value, after)) :
    ∃ first middle, step.run.run state = (.ok first, middle) ∧ (next first).run.run middle = (.ok value, after) := by
  rw [ExceptT.run_bind, StateT.run_bind] at success
  rcases ran : step.run.run state with ⟨outcome, middle⟩
  rw [ran] at success
  cases outcome with
  | ok first => exact ⟨first, middle, rfl, success⟩
  | error error => cases success

theorem run_adapt {σ ε ε' α : Type} (f : ε → ε') (step : ExceptT ε (StateM σ) α) (state : σ) :
    (ExceptT.adapt f step).run.run state = ((step.run.run state).1.mapError f, (step.run.run state).2) := rfl

theorem run_adapt_ok {σ ε ε' α : Type} {f : ε → ε'} {step : ExceptT ε (StateM σ) α} {state after : σ} {value : α}
    (success : (ExceptT.adapt f step).run.run state = (.ok value, after)) : step.run.run state = (.ok value, after) := by
  rw [run_adapt] at success
  rcases ran : step.run.run state with ⟨outcome, ended⟩
  rw [ran] at success
  cases outcome with
  | ok result =>
    cases success
    rfl
  | error error => cases success

/-- A computation succeeds in a state. -/
def Succeeds {σ ε α : Type} (step : ExceptT ε (StateM σ) α) (state : σ) : Prop :=
  ∃ value after, step.run.run state = (.ok value, after)

theorem Succeeds.bind {σ ε α β : Type} {step : ExceptT ε (StateM σ) α} {next : α → ExceptT ε (StateM σ) β} {state : σ}
    (first : Succeeds step state)
    (rest : ∀ value middle, step.run.run state = (.ok value, middle) → Succeeds (next value) middle) :
    Succeeds (step >>= next) state := by
  obtain ⟨value, middle, ran⟩ := first
  obtain ⟨result, after, ends⟩ := rest value middle ran
  exact ⟨result, after, (run_bind_of_ok ran).trans ends⟩

theorem Succeeds.pure {σ ε α : Type} (value : α) (state : σ) :
    Succeeds (Pure.pure value : ExceptT ε (StateM σ) α) state :=
  ⟨value, state, rfl⟩

/-- A value that a computation gives in some state. -/
def Yields {σ ε α : Type} (step : ExceptT ε (StateM σ) α) (value : α) : Prop :=
  ∃ state after, step.run.run state = (.ok value, after)

namespace Yields

variable {σ ε α β : Type}

theorem eq_of_pure {value result : α} (yields : Yields (pure value : ExceptT ε (StateM σ) α) result) :
    result = value := by
  obtain ⟨state, after, ran⟩ := yields
  cases ran
  rfl

theorem not_throw {error : ε} {result : α} (yields : Yields (throw error : ExceptT ε (StateM σ) α) result) : False := by
  obtain ⟨state, after, ran⟩ := yields
  cases ran

theorem of_bind {step : ExceptT ε (StateM σ) α} {next : α → ExceptT ε (StateM σ) β} {result : β}
    (yields : Yields (step >>= next) result) : ∃ value, Yields step value ∧ Yields (next value) result := by
  obtain ⟨state, after, ran⟩ := yields
  obtain ⟨value, middle, first, rest⟩ := run_bind_ok ran
  exact ⟨value, ⟨state, middle, first⟩, ⟨middle, after, rest⟩⟩

theorem forall₂_of_mapM {f : α → ExceptT ε (StateM σ) β} {list : List α} {results : List β}
    (yields : Yields (list.mapM f) results) : List.Forall₂ (fun a b => Yields (f a) b) list results := by
  induction list generalizing results with
  | nil =>
    rw [List.mapM_nil] at yields
    obtain rfl := yields.eq_of_pure
    exact .nil
  | cons a rest ih =>
    rw [List.mapM_cons] at yields
    obtain ⟨first, ofFirst, yields⟩ := yields.of_bind
    obtain ⟨others, ofRest, yields⟩ := yields.of_bind
    obtain rfl := yields.eq_of_pure
    exact .cons ofFirst (ih ofRest)

end Yields

namespace Within

variable {σ α β ε : Type} {R : σ → σ → Prop}

theorem mono {S : σ → σ → Prop} {step : StateM σ α} (stays : Within R step) (weaker : ∀ s t, R s t → S s t) :
    Within S step :=
  fun state => weaker _ _ (stays state)

theorem of_run {step : StateM σ α} (stays : Within R step) {state after : σ} {value : α}
    (ran : step.run state = (value, after)) : R state after := by
  have related := stays state
  rwa [ran] at related

theorem map {step : StateM σ α} (f : α → β) (stays : Within R step) : Within R (f <$> step) :=
  stays

theorem modify {f : σ → σ} (change : ∀ state, R state (f state)) : Within R (modify f : StateM σ PUnit) :=
  change

/-- A step of the world stays within a relation that takes no account of the world. -/
theorem lift {ω : Type} [HoldsWorld σ ω] (world : ∀ world (state : σ), R state (HoldsWorld.setWorld world state))
    (step : StateM ω α) : Within R (HoldsWorld.lift step : StateM σ α) :=
  fun state => world _ state

variable [IsPreorder σ R]

protected theorem pure (value : α) : Within R (pure value : StateM σ α) :=
  fun state => refl_of R state

theorem get : Within R (get : StateM σ σ) :=
  fun state => refl_of R state

theorem bind {step : StateM σ α} {next : α → StateM σ β} (first : Within R step)
    (rest : ∀ value, Within R (next value)) : Within R (step >>= next) :=
  fun state => trans_of R (first state) (rest _ _)

/-! ## Computations that may fail -/

theorem throw (error : ε) : Within R (throw error : ExceptT ε (StateM σ) α).run :=
  .pure (Except.error error)

theorem bindExcept {step : ExceptT ε (StateM σ) α} {next : α → ExceptT ε (StateM σ) β} (first : Within R step.run)
    (rest : ∀ value, Within R (next value).run) : Within R (step >>= next).run := by
  rw [ExceptT.run_bind]
  refine bind first fun outcome => ?_
  cases outcome with
  | ok value => exact rest value
  | error error => exact .pure _

theorem forM {f : α → ExceptT ε (StateM σ) PUnit} (each : ∀ a, Within R (f a).run) (list : List α) :
    Within R (list.forM f).run := by
  induction list with
  | nil => exact .pure _
  | cons a rest ih => exact bindExcept (each a) fun _ => ih

theorem mapM {f : α → ExceptT ε (StateM σ) β} (each : ∀ a, Within R (f a).run) (list : List α) :
    Within R (list.mapM f).run := by
  induction list with
  | nil => exact .pure _
  | cons a rest ih =>
    rw [List.mapM_cons]
    exact bindExcept (each a) fun _ => bindExcept ih fun _ => .pure _

end Within

/-- A property of computations that may fail, which passes from the parts of a computation to the whole. -/
structure Composes {σ ε : Type} (P : {α : Type} → ExceptT ε (StateM σ) α → Prop) : Prop where
  pure : ∀ {α : Type} (value : α), P (Pure.pure value : ExceptT ε (StateM σ) α)
  throw : ∀ {α : Type} (error : ε), P (MonadExcept.throw error : ExceptT ε (StateM σ) α)
  bind : ∀ {α β : Type} {step : ExceptT ε (StateM σ) α} {next : α → ExceptT ε (StateM σ) β}, P step →
    (∀ value, P (next value)) → P (step >>= next)

theorem Composes.mapM {σ ε : Type} {P : {α : Type} → ExceptT ε (StateM σ) α → Prop} (composes : Composes P)
    {α β : Type} {f : α → ExceptT ε (StateM σ) β} (each : ∀ a, P (f a)) (list : List α) : P (list.mapM f) := by
  induction list with
  | nil => exact composes.pure _
  | cons a rest ih =>
    rw [List.mapM_cons]
    exact composes.bind (each a) fun _ => composes.bind ih fun _ => composes.pure _

namespace Within

variable {σ α β ε : Type} {R : σ → σ → Prop} [IsPreorder σ R]

/-- Staying within a preorder passes to the whole. -/
theorem composes : Composes fun {α : Type} (step : ExceptT ε (StateM σ) α) => Within R step.run where
  pure _ := .pure _
  throw := throw
  bind := bindExcept

/-! ## Dialogues -/

/-- What the outside part of a dialogue does on its own changes the world alone. -/
theorem dialogue {ω Q : Type} {P : Q → Type} [HoldsWorld σ ω] {answer : (q : Q) → StateM σ (P q)}
    (world : ∀ world (state : σ), R state (HoldsWorld.setWorld world state)) (answers : ∀ q, Within R (answer q))
    (dialogue : Dialogue ω Q P α) : Within R (dialogue.run answer) := by
  induction dialogue with
  | done value => exact .pure value
  | look next ih => exact bind get fun state => ih _
  | put w next ih => exact bind (modify (world w)) fun _ => ih
  | ask question next ih => exact bind (answers question) ih

/-! ## Transforms -/

/-- Transforms in a row stay within a relation when each of them does, whatever the findings so far. -/
theorem applyAll {transforms : List (Transform σ)} (symbols : SymbolResolver)
    (each : ∀ transform ∈ transforms, ∀ u findings, Within R ((transform.apply symbols u).run.run findings))
    (u : SourceUnit) (findings : Findings) :
    Within R ((Transform.applyAll symbols transforms u).run.run findings) := by
  induction transforms generalizing u findings with
  | nil => exact .pure _
  | cons transform rest ih =>
    have tail := ih fun other member => each other (List.mem_cons_of_mem _ member)
    rw [Transform.applyAll, ExceptT.run_bind, StateT.run_bind]
    refine bind (each transform (List.mem_cons_self ..) u findings) fun ⟨outcome, after⟩ => ?_
    cases outcome with
    | ok made => exact tail made after
    | error error => exact .pure _

end Within

end CompanionBuild
