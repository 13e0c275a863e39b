import CompanionBuild.FileSystem.Basic
import CompanionBuild.Host.Caches
import CompanionBuild.Project.Options

/-! # The host of a build

The host is what the compiler and the analyzer see of the outside: a file system, a parser, a collector of metadata, and
overrides that an embedding tool may set. What the file system says about a file is asked once.
-/

namespace CompanionBuild

/-- The text of a resource, perhaps one that only comes when it is waited for. -/
inductive ResourceText where
  | ready (text : String)
  | deferred (result : Outcome String)

/-- What an embedding tool may decide itself. -/
structure Overrides (ω : Type) where
  /-- The file of a module name in a file. -/
  moduleFile : Option (String → String → StateM ω (Option String)) := none
  /-- The module name of a file in a file. -/
  moduleName : Option (String → String → StateM ω String) := none
  /-- The file of a resource in a file. -/
  resourceFile : Option (String → String → StateM ω (Option String)) := none
  readResource : Option (String → StateM ω ResourceText) := none
  /-- Called with the name of a resource that was not found. -/
  reportMissing : Option (String → StateM ω Unit) := none
  /-- The explicit module name of a companion. -/
  companionModule : Option (String → StateM ω (Option String)) := none

structure Host (ω : Type) where
  options : Options
  roots : List String
  files : FileSystem ω
  /-- The unit of a name and a text. -/
  parse : String → String → StateM ω SourceUnit
  /-- The metadata of a unit, if it has any. -/
  collect : SourceUnit → StateM ω (Option Json)
  overrides : Overrides ω := {}

namespace Host

variable {ω : Type} (host : Host ω)

/-- The file system has the file. -/
def exists? (file : String) : HostM ω Bool :=
  .memo (·.existing.get? file) (fun found caches => { caches with existing := caches.existing.put file found })
    (.inWorld (host.files.fileExists file))

/-- The text that the file system has for a file. -/
def readDisk (file : String) : HostM ω (Option String) :=
  .inWorld (host.files.read file)

/-- The unit of a file as it was read. -/
def writtenUnit (file : String) : HostM ω (Option SourceUnit) :=
  .memo (·.units.get? file) (fun u caches => { caches with units := caches.units.put file u }) do
    match ← host.readDisk file with
    | some text => pure (some (← HostM.inWorld (host.parse file text)))
    | none => pure none

/-- The text of a file, a summary taking the place of the file. -/
def fileText (file : String) : HostM ω (Option String) := do
  match (← HostM.caches).summaries.get? file with
  | some summary => pure (some summary.text)
  | none => host.readDisk file

/-- The text of a summary or of a file that exists. -/
def loadSummary (file : String) : HostM ω (Option String) := do
  match (← HostM.caches).summaries.get? file with
  | some summary => pure (some summary.text)
  | none => do
    if ← host.exists? file then host.readDisk file else pure none

/-- A file seen from the current directory. -/
def outputName (file : String) : String :=
  Path.relative host.files.currentDirectory file

end Host

end CompanionBuild
