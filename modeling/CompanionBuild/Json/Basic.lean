import CompanionBuild.Names
import CompanionBuild.Number.Binary64

/-! # JSON values

The fields of an object are a table, so they come in the order of their names. A number is a whole number of at most 64
bits or a double.
-/

namespace CompanionBuild

inductive Json.Number where
  | int (value : Int)
  | float (value : Binary64)
deriving DecidableEq, Inhabited

inductive Json where
  | null
  | bool (value : Bool)
  | number (value : Json.Number)
  | text (value : String)
  | array (elements : List Json)
  | object (fields : List (String × Json))
deriving Inhabited

namespace Json

/-- The value of a field, none for anything but an object that has it. -/
def field? (json : Json) (name : String) : Option Json :=
  match json with
  | .object fields => Table.get? fields name
  | _ => none

def text? : Json → Option String
  | .text value => some value
  | _ => none

def bool? : Json → Option Bool
  | .bool value => some value
  | _ => none

def array? : Json → Option (List Json)
  | .array elements => some elements
  | _ => none

def fields? : Json → Option (Table Json)
  | .object fields => some fields
  | _ => none

end Json

end CompanionBuild
