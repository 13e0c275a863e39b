import CompanionBuild.Json.Basic

/-! # Numbers as they are written in JSON

A whole number of at most 64 bits is kept as it is. Any other number is a double: the digits are gathered into a whole
number while it stays below `2 ^ 64`, the digits after that only move the decimal point, and the double of that number
is multiplied or divided by the double of a power of ten. With few digits and a small power that is the nearest double;
in general it may be a neighbour of it.
-/

namespace CompanionBuild.Json

/-- The number `± whole.fraction e exponent`, its digits from left to right. -/
structure Numeral where
  negative : Bool
  whole : List Nat
  /-- The digits after the point, empty where there is none. -/
  fraction : List Nat
  exponent : Option Int
deriving DecidableEq

namespace Numeral

def digitsValue (digits : List Nat) : Nat :=
  digits.foldl (fun value digit => 10 * value + digit) 0

/-- Digits appended to `value` while the result stays below `2 ^ 64`, and the digits that are left. -/
def gather (value : Nat) : List Nat → Nat × List Nat
  | [] => (value, [])
  | digit :: rest =>
    if 10 * value + digit < Nat.pow 2 64 then gather (10 * value + digit) rest else (value, digit :: rest)

/-- The gathered digits and the power of ten that goes with them. -/
def scaled (n : Numeral) : Nat × Int :=
  let (value, wholeLeft) := gather 0 n.whole
  let (value, fractionLeft) := gather value n.fraction
  (value, wholeLeft.length + fractionLeft.length - n.fraction.length + n.exponent.getD 0)

/-- A double divided by a power of ten, in steps of at most `10 ^ 308`. -/
def lowered? (x : Binary64) (power : Nat) : Option Binary64 :=
  if x.significand = 0 then some x
  else if power ≤ 308 then x.over? (.tenTo power)
  else do
    let x ← x.over? (.tenTo 308)
    lowered? x (power - 308)
termination_by power

/-- A double times a power of ten, none beyond the finite doubles. -/
def raised? (x : Binary64) (power : Int) : Option Binary64 :=
  if power < 0 then lowered? x power.natAbs
  else if power ≤ 308 then x.times? (.tenTo power.toNat)
  else if x.significand = 0 then some x
  else none

/-- The double that the numeral is read as, none beyond the finite doubles. -/
def double? (n : Numeral) : Option Binary64 := do
  let (value, power) := n.scaled
  let x ← Binary64.ofInt? value
  let x ← raised? x power
  some (.withSign n.negative x.bits.toNat)

/-- The numeral has neither fraction nor exponent. -/
def isWhole (n : Numeral) : Bool :=
  n.fraction.isEmpty && n.exponent.isNone

/-- The whole number within 64 bits that the numeral is. -/
def int? (n : Numeral) : Option Int :=
  let value := digitsValue n.whole
  if !n.isWhole then none
  else if n.negative then if 0 < value ∧ value ≤ Nat.pow 2 63 then some (-value) else none
  else if value < Nat.pow 2 64 then some value
  else none

def number? (n : Numeral) : Option Number :=
  match n.int? with
  | some value => some (.int value)
  | none => n.double?.map .float

end Numeral

end CompanionBuild.Json
