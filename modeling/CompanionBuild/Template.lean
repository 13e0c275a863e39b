import CompanionBuild.Diagnostic.Basic
import CompanionBuild.Text.Offset
import CompanionBuild.Tree.Printed

/-! # Places in templates

Generated code comes from templates and metadata files. The origins of a printed companion say which place of which
source each mark came from, so a place in the companion leads back to a span of the source.
-/

namespace CompanionBuild

/-- A byte offset in a source with its line and column. -/
structure TemplateLocation where
  file : NamedText
  offset : Nat
  place : Text.LineColumn
deriving DecidableEq

structure TemplateSpan where
  start : TemplateLocation
  stop : TemplateLocation
deriving DecidableEq

def TemplateLocation.of (file : NamedText) (offset : Nat) : Except Text.SplitCharacter TemplateLocation := do
  pure ⟨file, offset, ← Text.lineColumn file.text offset⟩

namespace TemplateSpan

def of (file : NamedText) (start stop : Nat) : Except Text.SplitCharacter TemplateSpan := do
  pure ⟨← TemplateLocation.of file start, ← TemplateLocation.of file stop⟩

def length (span : TemplateSpan) : Nat :=
  span.stop.offset - span.start.offset

def isEmpty (span : TemplateSpan) : Bool :=
  span.length = 0

end TemplateSpan

/-- The marks of a printed companion; the file of a mark is a position in the list of sources. -/
structure Origins where
  marks : List Mark := []
  sources : List NamedText := []

namespace Origins

/-- Of two marks the one further right, the later one where both start together. -/
def further (best : Option Mark) (mark : Mark) : Option Mark :=
  match best with
  | some other => if other.column ≤ mark.column then some mark else some other
  | none => some mark

/-- The last mark in a line that starts at or before a column. -/
def markAt? (origins : Origins) (line column : Nat) : Option Mark :=
  (origins.marks.filter fun mark => mark.line = line && mark.column ≤ column).foldl further none

/-- The span that the text at a line and column came from. -/
def spanAt (origins : Origins) (line column : Nat) : Except Text.SplitCharacter (Option TemplateSpan) :=
  match origins.markAt? line column with
  | none => .ok none
  | some mark =>
    match mark.span.file.bind (origins.sources[·]?) with
    | none => .ok none
    | some file => (TemplateSpan.of file mark.span.start mark.span.stop).map some

end Origins

end CompanionBuild
