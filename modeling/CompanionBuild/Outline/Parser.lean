import CompanionBuild.Path.Basic
import CompanionBuild.Text.Blank
import CompanionBuild.Tree.Unit

/-! # Outlines of texts

The outline of a text holds what its lines begin with: reference comments, imports and re-exports of whole modules.
Nothing else is understood, so any text has an outline.
-/

namespace CompanionBuild.Outline

/-- The content of a string in quotes, when a text starts with one. -/
def quoted? (text : List Char) : Option String :=
  match Text.trim text with
  | mark :: rest =>
    if (mark = '\'' || mark = '"') && rest.contains mark then some (String.ofList (rest.takeWhile (· ≠ mark)))
    else none
  | [] => none

/-- What follows the last occurrence of `needle`, the whole text if there is none. -/
def afterLast (needle : List Char) : List Char → List Char
  | [] => []
  | c :: cs =>
    match Text.after? needle cs with
    | some _ => afterLast needle cs
    | none => (needle.isPrefixOf? (c :: cs)).getD (c :: cs)

/-- The name of a whole module that an import binds. -/
def boundName? (line : List Char) : Option String :=
  ("import * as ".toList.isPrefixOf? line).bind fun rest =>
    match (rest.dropWhile Text.isBlank).takeWhile fun c => !Text.isBlank c with
    | [] => none
    | name => some (String.ofList name)

inductive Line where
  | reference (path : String)
  | item (value : Item)
  | other

/-- What a line says. -/
def Line.read (text : List Char) : Line :=
  let line := Text.trim text
  match "/// <reference path=".toList.isPrefixOf? line with
  | some rest => ((quoted? rest).map Line.reference).getD .other
  | none =>
    if "import ".toList.isPrefixOf line then
      ((quoted? (afterLast " from ".toList line)).map fun source =>
        Line.item (.imports ⟨((boundName? line).map ImportSpecifier.whole).toList, source, false⟩)).getD .other
    else
      match "export * from ".toList.isPrefixOf? line with
      | some rest => ((quoted? rest).map fun source => Line.item (.exportAll source)).getD .other
      | none => .other

def addLine (u : SourceUnit) (text : List Char) : SourceUnit :=
  match Line.read text with
  | .reference path => { u with references := u.references ++ [Path.resolve (Path.dirname u.name) path] }
  | .item value => { u with items := u.items ++ [.synthetic value] }
  | .other => u

/-- The outline of a text. -/
def parse (name text : String) : SourceUnit :=
  (Text.split '\n' text.toList).foldl addLine (.plain name text)

end CompanionBuild.Outline
