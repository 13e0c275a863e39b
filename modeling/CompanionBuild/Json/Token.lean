import CompanionBuild.Json.Numeral

/-! # Tokens of a JSON text

The scanner keeps what was written: a string is a list of characters and four-digit escapes, a number a numeral. Whether
the escapes pair up and whether the number has a double near it is decided by whoever reads the token, because a reader
that skips a value asks neither.
-/

namespace CompanionBuild.Json

/-- One element of a string as written: a character, or a four-digit escape. -/
inductive Piece where
  | char (c : Char)
  | unit (code : Nat)
deriving DecidableEq

inductive Token where
  | leftBrace
  | rightBrace
  | leftBracket
  | rightBracket
  | comma
  | colon
  | null
  | bool (value : Bool)
  | number (value : Numeral)
  | text (pieces : List Piece)
deriving DecidableEq

namespace Token

def isBlank (c : Char) : Bool :=
  c = ' ' || c = '\t' || c = '\n' || c = '\r'

/-- The characters of numbers and of the three literal words. -/
def isBare (c : Char) : Bool :=
  c.isAlphanum || c = '+' || c = '-' || c = '.'

def digitValue (c : Char) : Nat :=
  c.toNat - 48

/-- The exponent part: nothing, or a mark, an optional sign and digits. -/
def exponent? : List Char → Option (Option Int)
  | [] => some none
  | mark :: rest =>
    if mark = 'e' ∨ mark = 'E' then
      let (negative, digits) := match rest with
        | '-' :: more => (true, more)
        | '+' :: more => (false, more)
        | more => (false, more)
      if digits ≠ [] ∧ digits.all Char.isDigit then
        let value : Int := Numeral.digitsValue (digits.map digitValue)
        some (some (if negative then -value else value))
      else none
    else none

/-- The digits of the fraction, and the exponent part. -/
def fractionExponent? : List Char → Option (List Char × Option Int)
  | '.' :: rest =>
    let digits := rest.takeWhile Char.isDigit
    if digits = [] then none
    else (exponent? (rest.dropWhile Char.isDigit)).map fun exponent => (digits, exponent)
  | rest => (exponent? rest).map fun exponent => ([], exponent)

def unsigned? (negative : Bool) (chars : List Char) : Option Numeral :=
  let whole := chars.takeWhile Char.isDigit
  if whole = [] ∨ (whole.head? = some '0' ∧ whole.length ≠ 1) then none
  else
    (fractionExponent? (chars.dropWhile Char.isDigit)).map fun (fraction, exponent) =>
      { negative, whole := whole.map digitValue, fraction := fraction.map digitValue, exponent }

def numeral? : List Char → Option Numeral
  | '-' :: chars => unsigned? true chars
  | chars => unsigned? false chars

/-- A run of bare characters is one of the literal words or a number. -/
def ofBare? (chars : List Char) : Option Token :=
  if chars = "null".toList then some .null
  else if chars = "true".toList then some (.bool true)
  else if chars = "false".toList then some (.bool false)
  else (numeral? chars).map .number

/-- Where the scanner stands; what a token has gathered so far is kept in reverse. -/
inductive Mode where
  | between
  | bare (seen : List Char)
  | text (seen : List Piece)
  | escape (seen : List Piece)
  | code (seen : List Piece) (left value : Nat)

/-- The character of a one-letter escape. -/
def escaped? (c : Char) : Option Char :=
  if c = '"' ∨ c = '\\' ∨ c = '/' then some c
  else if c = 'b' then some '\x08'
  else if c = 'f' then some '\x0c'
  else if c = 'n' then some '\n'
  else if c = 'r' then some '\r'
  else if c = 't' then some '\t'
  else none

def hexValue? (c : Char) : Option Nat :=
  if c.isDigit then some (c.toNat - 48)
  else if 'a' ≤ c ∧ c ≤ 'f' then some (c.toNat - 87)
  else if 'A' ≤ c ∧ c ≤ 'F' then some (c.toNat - 55)
  else none

/-- One character between tokens: the tokens it completes and where the scanner stands after it. -/
def start? (c : Char) : Option (List Token × Mode) :=
  if isBlank c then some ([], .between)
  else if c = '\x7b' then some ([.leftBrace], .between)
  else if c = '\x7d' then some ([.rightBrace], .between)
  else if c = '[' then some ([.leftBracket], .between)
  else if c = ']' then some ([.rightBracket], .between)
  else if c = ',' then some ([.comma], .between)
  else if c = ':' then some ([.colon], .between)
  else if c = '"' then some ([], .text [])
  else if isBare c then some ([], .bare [c])
  else none

/-- One character: the tokens it completes and where the scanner stands after it. -/
def step? : Mode → Char → Option (List Token × Mode)
  | .between, c => start? c
  | .bare seen, c =>
    if isBare c then some ([], .bare (c :: seen))
    else do
      let token ← ofBare? seen.reverse
      let (tokens, mode) ← start? c
      some (token :: tokens, mode)
  | .text seen, c =>
    if c = '"' then some ([.text seen.reverse], .between)
    else if c = '\\' then some ([], .escape seen)
    else if c.toNat < 32 then none
    else some ([], .text (.char c :: seen))
  | .escape seen, c =>
    if c = 'u' then some ([], .code seen 3 0)
    else (escaped? c).map fun c => ([], .text (.char c :: seen))
  | .code seen left value, c => do
    let digit ← hexValue? c
    let value := 16 * value + digit
    match left with
    | 0 => some ([], .text (.unit value :: seen))
    | left + 1 => some ([], .code seen left value)

/-- The tokens from a place in the text to its end. -/
def scan? : Mode → List Char → Option (List Token)
  | .between, [] => some []
  | .bare seen, [] => (ofBare? seen.reverse).map ([·])
  | _, [] => none
  | mode, c :: cs => do
    let (tokens, next) ← step? mode c
    let rest ← scan? next cs
    some (tokens ++ rest)

/-- The tokens of a whole text. -/
def ofText? (text : String) : Option (List Token) :=
  scan? .between text.toList

end Token

namespace Piece

/-- The characters of a string: two escapes that form a surrogate pair are one character, a lone half is refused. -/
def chars? : List Piece → Option (List Char)
  | [] => some []
  | .char c :: rest => (chars? rest).map (c :: ·)
  | .unit high :: rest =>
    if 0xD800 ≤ high ∧ high < 0xDC00 then
      match rest with
      | .unit low :: rest =>
        if 0xDC00 ≤ low ∧ low < 0xE000 then
          (chars? rest).map (Char.ofNat (0x10000 + (high - 0xD800) * 0x400 + (low - 0xDC00)) :: ·)
        else none
      | _ => none
    else if 0xDC00 ≤ high ∧ high < 0xE000 then none
    else (chars? rest).map (Char.ofNat high :: ·)

def string? (pieces : List Piece) : Option String :=
  (chars? pieces).map String.ofList

end Piece

end CompanionBuild.Json
