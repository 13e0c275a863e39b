import CompanionBuild.Diagnostic.Basic
import CompanionBuild.Number.Decimal
import CompanionBuild.Text.Blank

/-! # Reports

A diagnostic for a terminal. One that points into a text shows the line, the marked range in red and the message on an
arrow below it; any other is a line with its chain. A line is shown without the white space at its end, and a tab as
blanks. Texts are taken to be of one-byte characters and ranges to lie within one line.
-/

namespace CompanionBuild

namespace Report

/-- A character in red. -/
def red (c : Char) : String :=
  "\x1b[31m" ++ String.ofList [c] ++ "\x1b[0m"

def blanks (count : Nat) : String :=
  String.ofList (List.replicate count ' ')

/-- The heading of a report by category. -/
def heading : Category → String
  | .error => "Error"
  | .warning => "Warning"
  | .suggestion | .message => "Advice"

/-! ## Lines -/

/-- A line feed, a carriage return, a vertical tab or a form feed. -/
def endsLine (c : Char) : Bool :=
  c = '\n' || c = '\r' || c = '\x0b' || c = '\x0c'

/-- The lines of a text, each with its end; a carriage return takes the line feed after it along. -/
def lines : List Char → List (List Char)
  | [] => []
  | '\r' :: '\n' :: rest => ['\r', '\n'] :: lines rest
  | c :: rest =>
    if endsLine c then [c] :: lines rest
    else
      match lines rest with
      | [] => [[c]]
      | line :: others => (c :: line) :: others

/-- A line of a text: its number from one, its offset, and its characters without the white space at its end. -/
structure Line where
  number : Nat
  start : Nat
  chars : List Char

/-- The line that holds an offset, the last one for an offset past the end. -/
def lineAt (offset number start : Nat) : List (List Char) → Line
  | [] => ⟨number, start, []⟩
  | line :: rest =>
    if offset < start + line.length || rest.isEmpty then ⟨number, start, Text.trimEnd line⟩
    else lineAt offset (number + 1) (start + line.length) rest

/-- How many columns of the terminal the character at a place of a line takes: a tab reaches to the next place that four
divides. -/
def width (chars : List Char) (place : Nat) : Nat :=
  if chars[place]? = some '\t' then 4 - place % 4 else 1

/-! ## Rows -/

/-- The columns of one place, the first one and the others. -/
def columns (width : Nat) (first others : String) : String :=
  first ++ String.join (List.replicate (width - 1) others)

/-- The places of a row from the left, each as wide as the character above it. -/
def row (chars : List Char) (places : Nat) (draw : Nat → String × String) : String :=
  String.join ((List.range places).map fun place =>
    columns (width chars place) (draw place).1 (draw place).2)

/-- The report of a range of a text with a heading line and a message. -/
def located (file : NamedText) (start stop : Nat) (title message : String) : String :=
  let line := lineAt start 1 0 (lines file.text.toList)
  let number := Nat.repr line.number
  let first := start - line.start
  let last := stop - line.start
  let middle := (first + last) / 2
  let margin := blanks (number.length + 2)
  let isMarked (place : Nat) : Bool := first ≤ place && place < last
  let shown := row line.chars line.chars.length fun place =>
    let c := (line.chars[place]?.filter (· ≠ '\t')).getD ' '
    let text := if isMarked place then red c else String.ofList [c]
    (text, text)
  let underline := row line.chars (last + 2) fun place =>
    if place = middle then (red (if first = last then '│' else '┬'), red '─')
    else if isMarked place then (red '─', red '─')
    else (" ", " ")
  let arrow := row line.chars (last + 2) fun place =>
    if place < middle then (" ", " ") else (red (if place = middle then '╰' else '─'), red '─')
  title ++
    margin ++ "╭─[ " ++ file.name ++ ":" ++ number ++ ":" ++ Nat.repr (first + 1) ++ " ]\n" ++
    margin ++ "│\n" ++
    " " ++ number ++ " │ " ++ shown ++ "\n" ++
    margin ++ "│ " ++ underline ++ "\n" ++
    margin ++ "│ " ++ arrow ++ " " ++ message ++ "\n" ++
    String.ofList (List.replicate (number.length + 2) '─') ++ "╯\n"

end Report

namespace Diagnostic

def codeText (diagnostic : Diagnostic) : String :=
  "AX" ++ Binary64.intText diagnostic.code

/-- The report of a diagnostic that points nowhere. -/
def plainReport (diagnostic : Diagnostic) : String :=
  diagnostic.category.text ++ " " ++ diagnostic.codeText ++ ": " ++ diagnostic.flatMessage ++
    match diagnostic.position with
    | some p => "\n  at " ++ p.file ++ ":" ++ Nat.repr (p.line + 1) ++ ":" ++ Nat.repr (p.column + 1)
    | none => ""

def report (diagnostic : Diagnostic) : String :=
  match diagnostic.file, diagnostic.start with
  | some file, some start =>
    let size := file.text.utf8ByteSize
    let stop := min (start + max (diagnostic.length.getD 0) 1) (max size start)
    let title := "[" ++ diagnostic.codeText ++ "] " ++ Report.heading diagnostic.category ++ ": " ++
      diagnostic.message ++ "\n"
    if start > size then title else Report.located file start stop title diagnostic.flatMessage
  | _, _ => diagnostic.plainReport

/-- The reports of several diagnostics. -/
def reportAll (diagnostics : List Diagnostic) : String :=
  Text.joined "\n" (diagnostics.map report)

end Diagnostic

end CompanionBuild
