/-! # Text inside quotes

Double-quoted string literals and template literals without substitutions. In a string literal the quote, the backslash
and every character below U+0020 are escaped; in a template the backslash, the back quote and the dollar sign of an
opening substitution are.
-/

namespace CompanionBuild.Text

/-- The lower-case hexadecimal digit of a number below sixteen. -/
def hexDigit (n : Nat) : Char :=
  if n < 10 then Char.ofNat (48 + n) else Char.ofNat (87 + n)

/-- The four-digit escape of a code point below 2^16. -/
def unicodeEscape (c : Char) : List Char :=
  let n := c.toNat
  ['\\', 'u', hexDigit (n / 4096 % 16), hexDigit (n / 256 % 16), hexDigit (n / 16 % 16), hexDigit (n % 16)]

/-- What stands for one character between the quotes of a string literal. -/
def escapeChar (c : Char) : List Char :=
  if c = '"' then ['\\', '"']
  else if c = '\\' then ['\\', '\\']
  else if c = '\n' then ['\\', 'n']
  else if c = '\r' then ['\\', 'r']
  else if c = '\t' then ['\\', 't']
  else if c.toNat < 32 then unicodeEscape c
  else [c]

def quoteBody (text : List Char) : List Char :=
  text.flatMap escapeChar

/-- The double-quoted literal of a text. -/
def quote (text : String) : String :=
  "\"" ++ String.ofList (quoteBody text.toList) ++ "\""

def backQuote : Char := '\x60'

/-- What stands between the back quotes of a template literal. -/
def templateBody : List Char → List Char
  | [] => []
  | c :: cs =>
    if c = '\\' then '\\' :: '\\' :: templateBody cs
    else if c = backQuote then '\\' :: backQuote :: templateBody cs
    else if c = '$' ∧ cs.head? = some '\x7b' then '\\' :: '$' :: templateBody cs
    else c :: templateBody cs

/-- The template literal of a text. -/
def template (text : String) : String :=
  String.ofList (backQuote :: templateBody text.toList ++ [backQuote])

end CompanionBuild.Text
