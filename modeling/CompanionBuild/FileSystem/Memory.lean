import CompanionBuild.FileSystem.Basic
import CompanionBuild.Names
import CompanionBuild.Path.Basic

/-! # Files in memory

Files are kept under their normalized names. Outputs go to a place of their own, under the names they were given, so
writing never changes what is read. Every question about a name is counted.
-/

namespace CompanionBuild

structure MemoryFiles where
  files : Table String := []
  written : Table String := []
  /-- How often the text of a name was asked for. -/
  reads : Table Nat := []
  /-- How often it was asked whether a name exists. -/
  checks : Table Nat := []

namespace MemoryFiles

def add (memory : MemoryFiles) (name text : String) : MemoryFiles :=
  { memory with files := memory.files.put (Path.normalize name) text }

def remove (memory : MemoryFiles) (name : String) : MemoryFiles :=
  { memory with files := memory.files.remove (Path.normalize name) }

def ofList (files : List (String × String)) : MemoryFiles :=
  files.foldl (fun memory file => memory.add file.1 file.2) {}

def text? (memory : MemoryFiles) (name : String) : Option String :=
  memory.files.get? (Path.normalize name)

/-- Some file lies below the directory. -/
def hasDirectory (memory : MemoryFiles) (name : String) : Bool :=
  let dir := (Path.normalize name).toList.reverse.dropWhile (· = '/') |>.reverse
  memory.files.any fun file => (dir ++ ['/']).isPrefixOf file.1.toList

def count (counts : Table Nat) (name : String) : Nat :=
  (counts.get? name).getD 0

def fileExists (name : String) : StateM MemoryFiles Bool := fun memory =>
  ((memory.text? name).isSome, { memory with checks := memory.checks.put name (count memory.checks name + 1) })

def read (name : String) : StateM MemoryFiles (Option String) := fun memory =>
  (memory.text? name, { memory with reads := memory.reads.put name (count memory.reads name + 1) })

def write (name text : String) : StateM MemoryFiles Unit :=
  modify fun memory => { memory with written := memory.written.put name text }

/-- The files as a file system. -/
def system (currentDirectory : String) : FileSystem MemoryFiles where
  fileExists
  directoryExists name := do pure ((← get).hasDirectory name)
  read
  write name text _ := do
    write name text
    pure (.ok ())
  currentDirectory

end MemoryFiles

end CompanionBuild
