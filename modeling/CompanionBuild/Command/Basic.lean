import CompanionBuild.Text.Affix

/-! # Commands

The command line inspects how files of a project are named, resolved and classified. It consists of a command with its
operands, and switches that may stand anywhere.
-/

namespace CompanionBuild

inductive Command where
  /-- The name under which a file imports another. -/
  | moduleName (imported containing : String)
  /-- The file of a module name. -/
  | resolve (name : String) (containing : Option String)
  /-- The file of a resource. -/
  | resolveResource (name containing : String)
  /-- Which files are sources, and which companions they get. -/
  | classify (files : List String)
  /-- The options of the project. -/
  | options
deriving DecidableEq, Repr

/-- The words of a command line, sorted. -/
structure Words where
  project : Option String := none
  containing : Option String := none
  operands : List String := []

structure Invocation where
  /-- The project file. -/
  project : Option String
  command : Command
deriving DecidableEq, Repr

namespace Words

/-- The value in a word such as `--name=value`. -/
def valueOf? (name word : String) : Option String :=
  Text.dropHead? (name ++ "=") word

/-- The value in a word such as `-nvalue` or `-n=value`. -/
def shortValueOf? (name word : String) : Option String :=
  (Text.dropHead? name word).bind fun value =>
    if value = "" then none else some ((Text.dropHead? "=" value).getD value)

/-- The words after a switch that ends all switches are operands. -/
def read? (words : Words) : List String → Option Words
  | [] => some words
  | "--" :: rest => some { words with operands := words.operands ++ rest }
  | "-p" :: value :: rest | "--project" :: value :: rest => read? { words with project := some value } rest
  | "--from" :: value :: rest => read? { words with containing := some value } rest
  | "-v" :: rest | "--verbose" :: rest => read? words rest
  | word :: rest =>
    match valueOf? "--project" word, valueOf? "--from" word, shortValueOf? "-p" word with
    | some value, _, _ => read? { words with project := some value } rest
    | none, some value, _ => read? { words with containing := some value } rest
    | none, none, some value => read? { words with project := some value } rest
    | none, none, none =>
      if Text.startsWith word "-" && word ≠ "-" then none
      else read? { words with operands := words.operands ++ [word] } rest

/-- The command that the operands spell. -/
def command? (words : Words) : Option Command :=
  match words.operands, words.containing with
  | ["module-id", imported, containing], none => some (.moduleName imported containing)
  | ["resolve", name], containing => some (.resolve name containing)
  | ["resolve-resource", name, containing], none => some (.resolveResource name containing)
  | "classify" :: files, none => some (.classify files)
  | ["options"], none => some .options
  | _, _ => none

end Words

/-- The meaning of a command line, none if it has none. -/
def Invocation.parse? (args : List String) : Option Invocation := do
  let words ← Words.read? {} args
  let command ← words.command?
  some ⟨words.project, command⟩

end CompanionBuild
