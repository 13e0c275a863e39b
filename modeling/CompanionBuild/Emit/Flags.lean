/-! # What an emit produces -/

namespace CompanionBuild

structure EmitFlags where
  declarations : Bool := false
  scripts : Bool := false
  metadata : Bool := false
  messages : Bool := false
  companions : Bool := false
deriving DecidableEq, Repr

/-- How units are handed to the compiler. -/
inductive Batching where
  /-- One by one while there are few, all at once otherwise. -/
  | automatic
  | perFile
  | wholeProgram
deriving DecidableEq, Repr

namespace EmitFlags

/-- What is produced unless something else is asked for. -/
def usual : EmitFlags := { declarations := true, scripts := true, companions := true }

def bits (flags : EmitFlags) : Nat :=
  (if flags.declarations then 1 else 0) + (if flags.scripts then 2 else 0) + (if flags.metadata then 4 else 0) +
    (if flags.messages then 8 else 0) + (if flags.companions then 16 else 0)

def union (a b : EmitFlags) : EmitFlags where
  declarations := a.declarations || b.declarations
  scripts := a.scripts || b.scripts
  metadata := a.metadata || b.metadata
  messages := a.messages || b.messages
  companions := a.companions || b.companions

def inter (a b : EmitFlags) : EmitFlags where
  declarations := a.declarations && b.declarations
  scripts := a.scripts && b.scripts
  metadata := a.metadata && b.metadata
  messages := a.messages && b.messages
  companions := a.companions && b.companions

def contains (flags other : EmitFlags) : Bool :=
  flags.inter other = other

def intersects (flags other : EmitFlags) : Bool :=
  flags.inter other ≠ {}

/-- Something is produced at all; bundles of messages are not this program's work. -/
def producesFiles (flags : EmitFlags) : Bool :=
  flags.intersects { declarations := true, scripts := true, metadata := true, companions := true }

/-- Declarations and no scripts. -/
def onlyDeclarations (flags : EmitFlags) : Bool :=
  flags.declarations && !flags.scripts

end EmitFlags

end CompanionBuild
