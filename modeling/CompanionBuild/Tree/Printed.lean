import CompanionBuild.Text.Offset
import CompanionBuild.Tree.Span

/-! # Printed texts with the places of their nodes

Printing is a sequence of strokes on a page. A stroke that writes at the beginning of a line first moves to the current
depth, four blanks for each level; a mark records where the next text will start.
-/

namespace CompanionBuild

/-- The place at which the text of a node starts. -/
structure Mark where
  line : Nat
  column : Nat
  span : Span
deriving DecidableEq, Repr

structure Printed where
  text : String
  marks : List Mark
deriving DecidableEq, Inhabited

inductive Stroke where
  | write (text : String)
  | newline
  | deeper
  | shallower
  /-- The text of a node starts here. -/
  | mark (span : Span)
deriving DecidableEq

structure Page where
  text : String := ""
  here : Text.LineColumn := ⟨0, 0⟩
  depth : Nat := 0
  marks : List Mark := []

namespace Page

/-- The blanks before a text of the current depth. -/
def margin (page : Page) : List Char :=
  if page.here.column = 0 then List.replicate (4 * page.depth) ' ' else []

def append (page : Page) (chars : List Char) : Page :=
  { page with text := page.text ++ String.ofList chars, here := page.here.after chars }

def stroke (page : Page) : Stroke → Page
  | .write text => if text = "" then page else page.append (page.margin ++ text.toList)
  | .newline => page.append ['\n']
  | .deeper => { page with depth := page.depth + 1 }
  | .shallower => { page with depth := page.depth - 1 }
  | .mark span =>
    if span.isSynthetic then page
    else
      let column := if page.here.column = 0 then 4 * page.depth else page.here.column
      { page with marks := page.marks ++ [⟨page.here.line, column, span⟩] }

def draw (page : Page) (strokes : List Stroke) : Page :=
  strokes.foldl stroke page

end Page

/-- The page that a list of strokes fills. -/
def Printed.ofStrokes (strokes : List Stroke) : Printed :=
  let page := ({} : Page).draw strokes
  ⟨page.text, page.marks⟩

end CompanionBuild
