import CompanionBuild.FileSystem.Snapshot
import CompanionBuild.Text.Affix

/-! # Trees of files

A name is followed piece by piece: every piece but the last has to name a directory, and two dots lead up. A backslash
is an ordinary character.
-/

namespace CompanionBuild

/-- Texts by the pieces of their absolute names. A directory is there when something lies in it, or when it is the
current one. -/
structure FileTree where
  files : List (List String × String)
  currentDirectory : List String := []

namespace FileTree

def pieces (name : String) : List String :=
  (Text.split '/' name.toList).map String.ofList

def text? (tree : FileTree) (path : List String) : Option String :=
  (tree.files.find? (·.1 = path)).map (·.2)

def isDirectory (tree : FileTree) (path : List String) : Bool :=
  path.isPrefixOf tree.currentDirectory || tree.files.any fun file => path.isPrefixOf file.1 && path ≠ file.1

/-- Why nothing can be found below a place that is no directory. -/
def reason (tree : FileTree) (path : List String) : String :=
  if (tree.text? path).isSome then "Not a directory (os error 20)" else "No such file or directory (os error 2)"

/-- The place that pieces lead to from a place, or why they lead nowhere. -/
def follow (tree : FileTree) (path : List String) : List String → Except String (List String)
  | [] => .ok path
  | piece :: rest =>
    if !tree.isDirectory path then .error (tree.reason path)
    else if piece = "" || piece = "." then tree.follow path rest
    else if piece = ".." then tree.follow path.dropLast rest
    else tree.follow (path ++ [piece]) rest

/-- What is under a name; the empty name is nothing's. -/
def entry (tree : FileTree) (name : String) : Entry :=
  let start := if Text.startsWith name "/" then [] else tree.currentDirectory
  match if name = "" then .error (tree.reason []) else tree.follow start (pieces name) with
  | .error reason => .absent reason
  | .ok path =>
    match tree.text? path with
    | some text => .file (some text)
    | none => if tree.isDirectory path then .directory else .absent (tree.reason path)

end FileTree

end CompanionBuild
