/-! # Dialogues

A part supplied from outside works in a world of states `ω` and asks the build questions on the way. It is a tree of
its questions, so whatever it does to the build it does through the answers. Running a dialogue answers the questions in
a larger state that holds the world.
-/

namespace CompanionBuild

/-- A computation that reads and writes the world, and asks questions `q` with replies `R q`. -/
inductive Dialogue (ω Q : Type) (R : Q → Type) (α : Type) where
  | done (value : α)
  | look (next : ω → Dialogue ω Q R α)
  | put (world : ω) (next : Dialogue ω Q R α)
  | ask (question : Q) (next : R question → Dialogue ω Q R α)

namespace Dialogue

variable {ω Q : Type} {R : Q → Type} {α β : Type}

def bind (dialogue : Dialogue ω Q R α) (f : α → Dialogue ω Q R β) : Dialogue ω Q R β :=
  match dialogue with
  | .done value => f value
  | .look next => .look fun world => (next world).bind f
  | .put world next => .put world (next.bind f)
  | .ask question next => .ask question fun reply => (next reply).bind f

instance : Monad (Dialogue ω Q R) where
  pure := .done
  bind := bind

/-- One question. -/
def question (q : Q) : Dialogue ω Q R (R q) :=
  .ask q .done

/-- A step in the world alone. -/
def act (step : StateM ω α) : Dialogue ω Q R α :=
  .look fun world =>
    let (value, world) := step world
    .put world (.done value)

end Dialogue

/-- A state `σ` in which a world `ω` is kept. -/
class HoldsWorld (σ : Type) (ω : outParam Type) where
  world : σ → ω
  setWorld : ω → σ → σ

/-- A step of the world inside a larger state. -/
def HoldsWorld.lift {σ ω α : Type} [HoldsWorld σ ω] (step : StateM ω α) : StateM σ α := fun state =>
  let (value, world) := step (HoldsWorld.world state)
  (value, HoldsWorld.setWorld world state)

/-- The dialogue with its questions answered. -/
def Dialogue.run {σ ω Q α : Type} {R : Q → Type} [HoldsWorld σ ω] (answer : (q : Q) → StateM σ (R q)) :
    Dialogue ω Q R α → StateM σ α
  | .done value => pure value
  | .look next => do (next (HoldsWorld.world (← get))).run answer
  | .put world next => do
    modify (HoldsWorld.setWorld world)
    next.run answer
  | .ask question next => do (next (← answer question)).run answer

end CompanionBuild
