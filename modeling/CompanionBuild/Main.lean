import CompanionBuild.Command.Run

/-! # The command line

Everything is decided by `Invocation.run`. Here the names it asks about are looked up one by one until it needs no more.
-/

namespace CompanionBuild

/-- Why a file cannot be read. -/
def readFailure : IO.Error → String
  | .noFileOrDirectory _ code details => details ++ " (os error " ++ toString code ++ ")"
  | .permissionDenied _ code details => details ++ " (os error " ++ toString code ++ ")"
  | .inappropriateType _ code details => details ++ " (os error " ++ toString code ++ ")"
  | error => toString error

/-- What the disk has under a name. -/
def diskEntry (name : String) : IO Entry := do
  try
    let bytes ← IO.FS.readBinFile name
    pure (.file (String.fromUTF8? bytes))
  catch
    | .inappropriateType .. => pure .directory
    | error => pure (.absent (readFailure error))

/-- The reply to a command line on the disk. -/
partial def Invocation.runOnDisk (invocation : Invocation) (currentDirectory : String) (snapshot : Snapshot) :
    IO Reply := do
  let (reply, asked) := (invocation.run Snapshot.entry currentDirectory).run snapshot
  match asked.wanted with
  | none => pure reply
  | some name => invocation.runOnDisk currentDirectory (snapshot.learn name (← diskEntry name))

def usage : String :=
  "usage: annex [--project FILE] module-id IMPORTED CONTAINING | resolve MODULE [--from FILE] | " ++
    "resolve-resource RESOURCE CONTAINING | classify [FILES] | options"

end CompanionBuild

open CompanionBuild in
def main (args : List String) : IO UInt32 := do
  match Invocation.parse? args with
  | none => do
    IO.eprintln usage
    pure 2
  | some invocation => do
    let currentDirectory := Path.slashes (toString (← IO.currentDir))
    let reply ← invocation.runOnDisk currentDirectory {}
    IO.print reply.out
    IO.eprint reply.err
    pure (if reply.isSuccess then 0 else 1)
