import CompanionBuild.Dialogue
import CompanionBuild.Error
import CompanionBuild.Lowering.Expression
import CompanionBuild.Metadata

/-! # What a build has found out

Everything the host looks up or makes is kept for the rest of the build, so that the compiler sees one unchanging set of
units. A degraded build has given up its companions. An error met while the compiler asks for units is parked until the
compiler is done.
-/

namespace CompanionBuild

/-- A record of a unit of a library, which takes the place of the file of its name. -/
structure LibrarySummary where
  name : String
  text : String
  /-- The unit, once it is known. -/
  unit : Option SourceUnit := none

/-- A companion in the form the compiler sees. -/
structure CompanionUnit where
  /-- The file it was generated for. -/
  base : String
  unit : SourceUnit
  origins : Origins
  /-- The modules its statements import from. -/
  references : Names

structure Caches where
  /-- Units as they were read, none for a file that cannot be read. -/
  units : Table (Option SourceUnit) := []
  /-- Units as they were last handed out with their companions attached. -/
  attached : Table SourceUnit := []
  existing : Table Bool := []
  companions : Table CompanionUnit := []
  /-- The companions attached to a unit. -/
  companionNames : Table (List String) := []
  summaries : Table LibrarySummary := []
  /-- Module names by the imported and the importing file. -/
  moduleNames : Table String := []
  /-- Directories that lie in a package with a bundle index, and those that do not. -/
  bundled : Table Bool := []
  bundleIndexes : Names := []
  bundleRedirects : Names := []
  metadata : MetadataCache := []
  requests : Lowering.RequestCache := []
  /-- The metadata records of files. -/
  records : Table (Option (List Json)) := []
  isDegraded : Bool := false
  parked : Option BuildError := none

namespace Caches

/-- The caches of a build that starts with some summaries; of two with one name the later counts. -/
def ofSummaries (summaries : List LibrarySummary) : Caches :=
  { summaries := Table.ofList (summaries.map fun summary => (summary.name, summary)) }

/-- Keeps an error unless one is kept already. -/
def park (caches : Caches) (error : BuildError) : Caches :=
  { caches with parked := caches.parked.or (some error) }

def degrade (caches : Caches) : Caches :=
  { caches with isDegraded := true }

end Caches

/-- A world of states `ω` together with what the build has found out. -/
structure Situation (ω : Type) where
  world : ω
  caches : Caches

instance {ω : Type} : HoldsWorld (Situation ω) ω where
  world := Situation.world
  setWorld world situation := { situation with world }

/-- A computation of the host that cannot fail. -/
abbrev HostM (ω : Type) := StateM (Situation ω)

/-- A computation of the host that may fail; a failure undoes nothing. -/
abbrev Attempt (ω : Type) := ExceptT BuildError (HostM ω)

namespace HostM

variable {ω α : Type}

/-- A step of the world alone. -/
def inWorld (step : StateM ω α) : HostM ω α :=
  HoldsWorld.lift step

def caches : HostM ω Caches := do
  pure (← get).caches

def modifyCaches (f : Caches → Caches) : HostM ω Unit :=
  modify fun situation => { situation with caches := f situation.caches }

/-- The value in the caches, or else a computed one, which is kept there. -/
def memo (find : Caches → Option α) (keep : α → Caches → Caches) (compute : HostM ω α) : HostM ω α := do
  match find (← caches) with
  | some value => pure value
  | none =>
    let value ← compute
    modifyCaches (keep value)
    pure value

/-- The parked error, which is parked no longer. -/
def takeParked : HostM ω (Option BuildError) := do
  let parked := (← caches).parked
  modifyCaches fun caches => { caches with parked := none }
  pure parked

end HostM

namespace Attempt

variable {ω α : Type}

/-- A step of the world alone. -/
def inWorld (step : StateM ω α) : Attempt ω α :=
  ExceptT.lift (HostM.inWorld step)

def caches : Attempt ω Caches :=
  ExceptT.lift HostM.caches

def modifyCaches (f : Caches → Caches) : Attempt ω Unit :=
  ExceptT.lift (HostM.modifyCaches f)

/-- The value in the caches, or else a computed one, which is kept there; a failure is not kept. -/
def memo (find : Caches → Option α) (keep : α → Caches → Caches) (compute : Attempt ω α) : Attempt ω α := do
  match find (← caches) with
  | some value => pure value
  | none =>
    let value ← compute
    modifyCaches (keep value)
    pure value

/-- Fails with the parked error, if there is one. -/
def raiseParked : Attempt ω Unit := do
  match ← (HostM.takeParked : HostM ω _) with
  | some error => throw error
  | none => pure ()

end Attempt

end CompanionBuild
