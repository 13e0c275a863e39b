import CompanionBuild.Json.Basic
import CompanionBuild.Number.Decimal
import CompanionBuild.Text.Quoted

/-! # Texts of JSON values

The compact form has no blanks. The indented form puts every element and field on a line of its own, two blanks deeper
than its container. A double always shows a point or an exponent.
-/

namespace CompanionBuild.Json

/-- What stands for one character between the quotes of a JSON string. -/
def escapeChar (c : Char) : List Char :=
  if c = '"' then ['\\', '"']
  else if c = '\\' then ['\\', '\\']
  else if c = '\x08' then ['\\', 'b']
  else if c = '\x0c' then ['\\', 'f']
  else if c = '\n' then ['\\', 'n']
  else if c = '\r' then ['\\', 'r']
  else if c = '\t' then ['\\', 't']
  else if c.toNat < 32 then Text.unicodeEscape c
  else [c]

def quoted (text : String) : String :=
  "\"" ++ String.ofList (text.toList.flatMap escapeChar) ++ "\""

/-- An exponent with its sign. -/
def exponentText (exponent : Int) : String :=
  "e" ++ (if exponent < 0 then "" else "+") ++ Binary64.intText exponent

/-- The shortest digits of a double: positional from `10 ^ -5` up to sixteen whole digits, else with an exponent. -/
def floatText (x : Binary64) : String :=
  let d := Decimal.shortest x
  let digits := Nat.repr d.digits
  let point := d.exponent + digits.length
  let sign := if x.isNegative then "-" else ""
  sign ++
    if 0 ≤ d.exponent ∧ point ≤ 16 then d.positional ++ ".0"
    else if -5 < point ∧ point ≤ 16 then d.positional
    else
      let rest := digits.toList.drop 1
      let fraction := if rest.isEmpty then "" else "." ++ String.ofList rest
      String.ofList (digits.toList.take 1) ++ fraction ++ exponentText (point - 1)

def Number.render : Number → String
  | .int value => Binary64.intText value
  | .float value => floatText value

mutual

def render : Json → String
  | .null => "null"
  | .bool value => if value then "true" else "false"
  | .number value => value.render
  | .text value => quoted value
  | .array elements => "[" ++ String.intercalate "," (renderElements elements) ++ "]"
  | .object fields => "\x7b" ++ String.intercalate "," (renderFields fields) ++ "\x7d"

def renderElements : List Json → List String
  | [] => []
  | element :: rest => element.render :: renderElements rest

def renderFields : List (String × Json) → List String
  | [] => []
  | (name, value) :: rest => (quoted name ++ ":" ++ value.render) :: renderFields rest

end

/-- The items of a container, each on its own line inside the brackets. -/
def block (indent left right : String) (items : List String) : String :=
  if items.isEmpty then left ++ right
  else
    left ++ "\n" ++ String.intercalate ",\n" (items.map fun item => indent ++ "  " ++ item) ++ "\n" ++ indent ++ right

mutual

/-- The indented form of a value that stands in a line indented by `indent`. -/
def pretty (indent : String) : Json → String
  | .array elements => block indent "[" "]" (prettyElements (indent ++ "  ") elements)
  | .object fields => block indent "\x7b" "\x7d" (prettyFields (indent ++ "  ") fields)
  | .null => "null"
  | .bool value => if value then "true" else "false"
  | .number value => value.render
  | .text value => quoted value

def prettyElements (indent : String) : List Json → List String
  | [] => []
  | element :: rest => element.pretty indent :: prettyElements indent rest

def prettyFields (indent : String) : List (String × Json) → List String
  | [] => []
  | (name, value) :: rest => (quoted name ++ ": " ++ value.pretty indent) :: prettyFields indent rest

end

end CompanionBuild.Json
