import CompanionBuild.FileSystem.Basic
import CompanionBuild.Names

/-! # Files as far as they are known

A snapshot holds what was found out about some names. A question about another name is noted and answered as if nothing
were there; whoever holds the snapshot can then find out, and ask again.
-/

namespace CompanionBuild

/-- What is found under a name. -/
inductive Entry where
  /-- A file, with its text unless it is no text. -/
  | file (text : Option String)
  | directory
  /-- Nothing that can be read, and why. -/
  | absent (reason : String)
deriving DecidableEq, Repr

namespace Entry

def isFile : Entry → Bool
  | .file _ => true
  | _ => false

def isDirectory : Entry → Bool
  | .directory => true
  | _ => false

/-- The text of a file, or why there is none. -/
def text : Entry → Except String String
  | .file (some text) => .ok text
  | .file none => .error "stream did not contain valid UTF-8"
  | .directory => .error "Is a directory (os error 21)"
  | .absent reason => .error reason

end Entry

structure Snapshot where
  known : Table Entry := []
  /-- The first name that was asked about without being known. -/
  wanted : Option String := none

namespace Snapshot

/-- What is known under a name. -/
def entry (name : String) : StateM Snapshot Entry := fun snapshot =>
  match snapshot.known.get? name with
  | some entry => (entry, snapshot)
  | none => (.absent "", { snapshot with wanted := snapshot.wanted.or (some name) })

/-- The snapshot with one more name known, and nothing wanted. -/
def learn (snapshot : Snapshot) (name : String) (entry : Entry) : Snapshot :=
  { known := snapshot.known.put name entry, wanted := none }

end Snapshot

/-- The file system that reads what `find` finds and takes no outputs. -/
def FileSystem.readOnly {ω : Type} (find : String → StateM ω Entry) (currentDirectory : String) : FileSystem ω where
  fileExists name := do pure (← find name).isFile
  directoryExists name := do pure (← find name).isDirectory
  read name := do pure (← find name).text.toOption
  write _ _ _ := pure (.error "Read-only file system (os error 30)")
  currentDirectory

end CompanionBuild
