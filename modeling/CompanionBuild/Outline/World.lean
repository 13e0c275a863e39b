import CompanionBuild.FileSystem.Memory
import CompanionBuild.Host.Basic

/-! # A world to try builds in

Files in memory, some of which may misbehave, and a log of what the stand-ins for compiler and analyzer were asked.
-/

namespace CompanionBuild.Outline

structure World where
  memory : MemoryFiles := {}
  /-- The successful writes in order, each with its sources. -/
  writes : List (String × List String) := []
  log : List String := []
  /-- Resources that were reported missing. -/
  missing : List String := []
  /-- The first place inside a character that a stand-in was to point at. It cannot, and the run has no answer. -/
  stopped : Option Text.SplitCharacter := none

/-- Adds a line to the log. -/
def note (line : String) : StateM World Unit :=
  modify fun world => { world with log := world.log ++ [line] }

/-- Stops the run, unless it is stopped already. -/
def stop (split : Text.SplitCharacter) : StateM World Unit :=
  modify fun world => { world with stopped := world.stopped.or (some split) }

def inMemory {α : Type} (step : StateM MemoryFiles α) : StateM World α := fun world =>
  let (value, memory) := step world.memory
  (value, { world with memory })

/-- Names of files that misbehave. -/
structure Faults where
  /-- These exist and cannot be read. -/
  unreadable : List String := []
  /-- These cannot be written. -/
  unwritable : List String := []

/-- The files in memory with their faults; the memory counts every question, whatever the answer. -/
def files (faults : Faults) (currentDirectory : String) : FileSystem World where
  fileExists name := do
    let found ← inMemory (MemoryFiles.fileExists name)
    pure (found || faults.unreadable.contains name)
  directoryExists name := do pure ((← get).memory.hasDirectory name)
  read name := do
    let text ← inMemory (MemoryFiles.read name)
    pure (if faults.unreadable.contains name then none else text)
  write name text sources := do
    if faults.unwritable.contains name then pure (.error "disk full")
    else
      inMemory (MemoryFiles.write name text)
      modify fun world => { world with writes := world.writes ++ [(name, sources)] }
      pure (.ok ())
  currentDirectory

/-- Keeps the name of a missing resource. -/
def reportMissing (name : String) : StateM World Unit :=
  modify fun world => { world with missing := world.missing ++ [name] }

end CompanionBuild.Outline
