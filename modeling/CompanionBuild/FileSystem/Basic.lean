/-! # File systems

A file system is a set of operations in a world of states `ω`: asking may leave a trace there, as a counter does.
-/

namespace CompanionBuild

/-- What can be asked about files. -/
structure FileLookup (ω : Type) where
  fileExists : String → StateM ω Bool
  directoryExists : String → StateM ω Bool
  /-- The text of a file, none if it cannot be read. -/
  read : String → StateM ω (Option String)

structure FileSystem (ω : Type) extends FileLookup ω where
  /-- Writes a text under a name, given the sources that it was made from; a failure has a reason. -/
  write : String → String → List String → StateM ω (Except String Unit)
  currentDirectory : String

/-- The first file of a list that exists. -/
def FileLookup.firstExisting {ω : Type} (files : FileLookup ω) : List String → StateM ω (Option String)
  | [] => pure none
  | name :: rest => do
    if ← files.fileExists name then pure (some name) else files.firstExisting rest

end CompanionBuild
