import CompanionBuild.Text.Affix

/-! # Diagnostics

A diagnostic is a message with a category and a code, perhaps a place in a text, and perhaps a chain of explanations.
-/

namespace CompanionBuild

inductive Category where
  | warning
  | error
  | suggestion
  | message
deriving DecidableEq, Repr

def Category.text : Category → String
  | .warning => "warning"
  | .error => "error"
  | .suggestion => "suggestion"
  | .message => "message"

/-- A text with the name it is known by. -/
structure NamedText where
  name : String
  text : String
deriving DecidableEq, Repr, Inhabited

/-- A place in a file of which only the name is at hand, both parts counted from zero. -/
structure Position where
  file : String
  line : Nat
  column : Nat
deriving DecidableEq, Repr

/-- An explanation with the explanations of its parts. -/
structure MessageChain where
  message : String
  position : Option Position
  next : List MessageChain

instance : Inhabited MessageChain := ⟨⟨"", none, []⟩⟩

mutual

/-- The lines of a chain, two blanks deeper at each level. -/
def MessageChain.flatten (depth : Nat) : MessageChain → String
  | ⟨message, _, next⟩ =>
    "\n" ++ String.ofList (List.replicate (2 * depth) ' ') ++ message ++ MessageChain.flattenAll (depth + 1) next

def MessageChain.flattenAll (depth : Nat) : List MessageChain → String
  | [] => ""
  | chain :: rest => chain.flatten depth ++ MessageChain.flattenAll depth rest

end

structure Diagnostic where
  message : String
  category : Category := .error
  code : Int
  file : Option NamedText := none
  start : Option Nat := none
  length : Option Nat := none
  chain : Option MessageChain := none
  /-- A place outside any text at hand. -/
  position : Option Position := none
  /-- Who reports it, none for the compiler itself. -/
  source : Option String := none

namespace Diagnostic

/-- A remark that points nowhere. -/
def remark (message source : String) : Diagnostic :=
  { message, category := .message, code := 0, source := some source }

/-- The diagnostic at a place of a text. -/
def locatedAt (diagnostic : Diagnostic) (file : NamedText) (start length : Nat) : Diagnostic :=
  { diagnostic with file := some file, start := some start, length := some length }

def isError (diagnostic : Diagnostic) : Bool :=
  diagnostic.category = .error

/-- The message followed by its chain. -/
def flatMessage (diagnostic : Diagnostic) : String :=
  diagnostic.message ++
    match diagnostic.chain with
    | some chain => chain.flatten 1
    | none => ""

end Diagnostic

end CompanionBuild
