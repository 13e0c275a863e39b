import CompanionBuild.Proofs.Resource.Within

/-! # Computations with one outcome

A computation is determined when its outcome does not depend on the state it starts in, whatever it does to the state.
What such a computation yields can be read off its parts, in any order, and it can be run like a computation without any
state.
-/

namespace CompanionBuild

variable {σ ε α β : Type}

/-- The outcome of a computation is the same in every state. -/
def Determined (step : ExceptT ε (StateM σ) α) : Prop :=
  ∀ state other, (step.run.run state).1 = (step.run.run other).1

namespace Determined

theorem bind {step : ExceptT ε (StateM σ) α} {next : α → ExceptT ε (StateM σ) β} (first : Determined step)
    (rest : ∀ value, Determined (next value)) : Determined (step >>= next) := by
  intro state other
  have same := first state other
  rw [ExceptT.run_bind, StateT.run_bind, StateT.run_bind]
  rcases ran : step.run.run state with ⟨outcome, middle⟩
  rcases ran' : step.run.run other with ⟨outcome', middle'⟩
  rw [ran, ran'] at same
  obtain rfl : outcome = outcome' := same
  cases outcome with
  | ok value => exact rest value middle middle'
  | error error => rfl

theorem composes : Composes fun {α : Type} (step : ExceptT ε (StateM σ) α) => Determined step where
  pure _ _ _ := rfl
  throw _ _ _ := rfl
  bind := bind

/-- In any state, a determined computation gives what it yields. -/
theorem yields_iff {step : ExceptT ε (StateM σ) α} (determined : Determined step) (state : σ) {value : α} :
    Yields step value ↔ (step.run.run state).1 = .ok value := by
  constructor
  · rintro ⟨other, after, ran⟩
    rw [determined state other, ran]
  · intro gives
    exact ⟨state, (step.run.run state).2, Prod.ext gives rfl⟩

end Determined

namespace Yields

theorem eq {step : ExceptT ε (StateM σ) α} (determined : Determined step) {value other : α} (yields : Yields step value)
    (yields' : Yields step other) : value = other := by
  obtain ⟨state, after, ran⟩ := yields
  have gives := (determined.yields_iff state).mp yields'
  rw [ran] at gives
  exact Except.ok.inj gives

theorem bind_iff {step : ExceptT ε (StateM σ) α} {next : α → ExceptT ε (StateM σ) β} {result : β}
    (determined : ∀ value, Determined (next value)) :
    Yields (step >>= next) result ↔ ∃ value, Yields step value ∧ Yields (next value) result := by
  refine ⟨of_bind, ?_⟩
  rintro ⟨value, ⟨state, middle, ran⟩, rest⟩
  have gives := ((determined value).yields_iff middle).mp rest
  refine ⟨state, ((next value).run.run middle).2, ?_⟩
  rw [ExceptT.run_bind, StateT.run_bind, ran]
  exact Prod.ext gives rfl

variable [Nonempty σ]

theorem pure_iff {value result : α} : Yields (pure value : ExceptT ε (StateM σ) α) result ↔ result = value := by
  refine ⟨eq_of_pure, ?_⟩
  rintro rfl
  obtain ⟨state⟩ := ‹Nonempty σ›
  exact ⟨state, state, rfl⟩

/-- A computation followed by a function. -/
theorem bind_pure_iff {step : ExceptT ε (StateM σ) α} {f : α → β} {result : β} :
    Yields (step >>= fun value => pure (f value)) result ↔ ∃ value, Yields step value ∧ result = f value := by
  rw [bind_iff fun _ => Determined.composes.pure _]
  simp only [pure_iff]

theorem mapM_iff {f : α → ExceptT ε (StateM σ) β} (determined : ∀ a, Determined (f a)) {list : List α}
    {results : List β} : Yields (list.mapM f) results ↔ List.Forall₂ (fun a b => Yields (f a) b) list results := by
  refine ⟨forall₂_of_mapM, fun each => ?_⟩
  induction each with
  | nil => exact pure_iff.mpr rfl
  | cons first _ ih =>
    rw [List.mapM_cons, bind_iff fun _ => Determined.composes.bind (Determined.composes.mapM determined _) fun _ =>
      Determined.composes.pure _]
    exact ⟨_, first, bind_pure_iff.mpr ⟨_, ih, rfl⟩⟩

end Yields

/-! ## Results in a given state -/

/-- What a computation gives in a state, none when it fails. -/
def result? (state : σ) (step : ExceptT ε (StateM σ) α) : Option α :=
  (step.run.run state).1.toOption

section

variable {state : σ}

theorem result?_pure (value : α) : result? state (pure value : ExceptT ε (StateM σ) α) = some value := rfl

theorem result?_bind (step : ExceptT ε (StateM σ) α) {next : α → ExceptT ε (StateM σ) β}
    (rest : ∀ value, Determined (next value)) :
    result? state (step >>= next) = (result? state step).bind fun value => result? state (next value) := by
  rw [result?, result?, ExceptT.run_bind, StateT.run_bind]
  rcases step.run.run state with ⟨outcome, middle⟩
  cases outcome with
  | ok value => exact congrArg Except.toOption (rest value middle state)
  | error error => rfl

theorem result?_bind_pure (step : ExceptT ε (StateM σ) α) (f : α → β) :
    result? state (step >>= fun value => pure (f value)) = (result? state step).map f := by
  rw [result?_bind step fun _ => Determined.composes.pure _]
  cases result? state step <;> rfl

end

/-! ## Hosts with steady answers -/

/-- What a host says about files and resources does not depend on the state. -/
structure ResourceHost.Steady {σ : Type} (host : ResourceHost σ) : Prop where
  fileOf : ∀ url file state other, ((host.fileOf url file).run state).1 = ((host.fileOf url file).run other).1
  load : ∀ file state other, ((host.load file).run state).1 = ((host.load file).run other).1

namespace Resource

theorem determined_get {host : ResourceHost σ} (steady : host.Steady) (file url : String) :
    Determined (host.get file url) := by
  have fileOf : Determined (ExceptT.lift (host.fileOf url file) : ResourceM σ _) := fun state other =>
    congrArg Except.ok (steady.fileOf url file state other)
  refine Determined.composes.bind fileOf fun target => ?_
  split
  · exact Determined.composes.throw _
  · refine Determined.composes.bind (steady.load _) fun loaded => ?_
    split
    · exact Determined.composes.pure _
    · exact Determined.composes.throw _

/-- A host that knows its resources beforehand has steady answers. -/
theorem steady_ofList (listed : List ListedResource) : (ResourceHost.ofList listed : ResourceHost σ).Steady :=
  ⟨fun _ _ _ _ => rfl, fun _ _ _ => rfl⟩

end Resource

end CompanionBuild
