import CompanionBuild.Build.Basic
import CompanionBuild.Proofs.Host.Lookup

/-! # Steps of a build and attempts of the host

A step is read off as its answer and the build it leaves, one part after the other. A step that carries out an attempt
of the host takes over its situation. Of an attempt that succeeded every part has succeeded.
-/

namespace CompanionBuild

variable {ω A : Type}

/-! ## Steps -/

namespace Step

variable {α β : Type}

/-- The answer of a step and the build that it leaves. -/
def on (step : Step ω A α) (build : Build ω A) : Outcome α × Build ω A :=
  step.run.run build

theorem on_bind (step : Step ω A α) (next : α → Step ω A β) (build : Build ω A) :
    (step >>= next).on build =
      match step.on build with
      | (.ok value, after) => (next value).on after
      | (.error error, after) => (.error error, after) := by
  unfold on
  rw [ExceptT.run_bind, StateT.run_bind]
  rcases step.run.run build with ⟨outcome, after⟩
  cases outcome <;> rfl

theorem on_bind_get (next : Build ω A → Step ω A β) (build : Build ω A) :
    (get >>= next).on build = (next build).on build := rfl

theorem on_bind_ofHost (step : HostM ω α) (next : α → Step ω A β) (build : Build ω A) :
    (ofHost step >>= next).on build =
      (next (step.run build.situation).1).on { build with situation := (step.run build.situation).2 } := rfl

theorem on_bind_outcome (attempt : Attempt ω α) (next : Outcome α → Step ω A β) (build : Build ω A) :
    (outcome attempt >>= next).on build =
      (next (attempt.run.run build.situation).1).on
        { build with situation := (attempt.run.run build.situation).2 } := rfl

theorem on_bind_ok (value : α) (next : α → Step ω A β) (build : Build ω A) :
    (ExceptT.mk (pure (.ok value)) >>= next : Step ω A β).on build = (next value).on build := rfl

theorem on_bind_modify (f : Build ω A → Build ω A) (next : Unit → Step ω A β) (build : Build ω A) :
    (modify f >>= next).on build = (next ()).on (f build) := rfl

end Step

/-! ## Attempts that succeed -/

/-- An attempt that leaves no error parked when it succeeds. -/
def Attempt.Clears {α : Type} (attempt : Attempt ω α) : Prop :=
  ∀ situation value after, attempt.run.run situation = (.ok value, after) → after.caches.parked = none

namespace Attempt.Clears

variable {α β : Type} {step : Attempt ω α} {next : α → Attempt ω β}

theorem bind (rest : ∀ value, (next value).Clears) : (step >>= next).Clears := by
  intro situation value after success
  obtain ⟨first, middle, _, last⟩ := run_bind_ok success
  exact rest first middle value after last

/-- No lookup parks an error. -/
theorem bind_lookups (first : step.Clears) (rest : ∀ value, LooksUp (next value).run) : (step >>= next).Clears := by
  intro situation value after success
  obtain ⟨made, middle, ran, last⟩ := run_bind_ok success
  have same : after.standing = middle.standing := (rest made).of_run last
  have parked : after.caches.parked = middle.caches.parked := (congrArg Caches.parked same : _)
  exact parked.trans (first situation made middle ran)

end Attempt.Clears

theorem Attempt.Clears.raiseParked : (Attempt.raiseParked : Attempt ω Unit).Clears := by
  intro situation value after success
  obtain ⟨parked, middle, taken, last⟩ := run_bind_ok success
  cases taken
  cases parked : situation.caches.parked with
  | none =>
    rw [parked] at last
    cases last
    rfl
  | some error =>
    rw [parked] at last
    cases last

end CompanionBuild
