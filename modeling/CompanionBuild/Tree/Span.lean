/-! # Places of nodes

A node comes from a range of bytes of a numbered file, or was made up and comes from no file.
-/

namespace CompanionBuild

structure Span where
  start : Nat
  stop : Nat
  /-- The file, none for a node that was made up. -/
  file : Option Nat
deriving DecidableEq, Repr, Inhabited

namespace Span

/-- The place of a node that was made up. -/
def synthetic : Span := ⟨0, 0, none⟩

def isSynthetic (span : Span) : Bool :=
  span.file.isNone

def length (span : Span) : Nat :=
  span.stop - span.start

def isEmpty (span : Span) : Bool :=
  span.length = 0

/-- The least range around both; it stays in the file of the first. -/
def merge (span other : Span) : Span :=
  ⟨min span.start other.start, max span.stop other.stop, span.file⟩

end Span

/-- A value with its place. -/
structure Located (α : Type) where
  span : Span
  value : α
deriving Inhabited

/-- A value that was made up. -/
def Located.synthetic {α : Type} (value : α) : Located α :=
  ⟨.synthetic, value⟩

end CompanionBuild
