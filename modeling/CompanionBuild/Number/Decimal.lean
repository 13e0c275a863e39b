import CompanionBuild.Number.Binary64

/-! # Decimal texts of doubles

A finite double is written with the fewest digits that read back as the same double: among the decimals inside its
rounding interval those on the coarsest grid of a power of ten are taken, of these the one nearest to the double, and of
two equally near the greater. The interval of a double with an even significand includes its ends.

Numerals in a program are positional throughout. A whole number below 10 ^ 21 is written as a 64-bit signed integer, so
one beyond that range is written as the bound of the range.
-/

namespace CompanionBuild

/-- The number `digits * 10 ^ exponent`. -/
structure Decimal where
  digits : Nat
  exponent : Int
deriving DecidableEq, Inhabited

namespace Decimal

/-- A value with the ends of its rounding interval, all over one denominator. -/
structure Interval where
  low : Nat
  value : Nat
  high : Nat
  denominator : Nat
  closed : Bool

/-- The rounding interval of a nonzero finite double, in quarters of the least double. -/
def Interval.of (x : Binary64) : Interval :=
  let m := x.significand
  let unit := Nat.pow 2 x.scale
  let gap := if m = Nat.pow 2 52 ∧ 0 < x.scale then 1 else 2
  ⟨(4 * m - gap) * unit, 4 * m * unit, (4 * m + 2) * unit, 4 * Nat.pow 2 1074, m % 2 = 0⟩

def Interval.holds (around : Interval) (point : Nat) : Bool :=
  if around.closed then around.low ≤ point && point ≤ around.high
  else around.low < point && point < around.high

/-- The same interval with every end multiplied by a factor. -/
def Interval.times (around : Interval) (factor : Nat) : Interval :=
  { around with low := around.low * factor, value := around.value * factor, high := around.high * factor }

/-- The multiple of `unit` inside the interval that is nearest to its value, the greater one of two. -/
def Interval.nearest? (around : Interval) (unit : Nat) : Option Nat :=
  let floor := around.value / unit
  let below := around.holds (floor * unit)
  let above := around.holds ((floor + 1) * unit)
  if above && (!below || 2 * (around.value % unit) ≥ unit) then some (floor + 1)
  else if below then some floor
  else none

/-- The nearest multiple of `10 ^ exponent` inside the interval. -/
def Interval.onGrid? (around : Interval) (exponent : Int) : Option Nat :=
  if 0 ≤ exponent then around.nearest? (around.denominator * Nat.pow 10 exponent.toNat)
  else (around.times (Nat.pow 10 (-exponent).toNat)).nearest? around.denominator

/-- The first grid, from `exponent` downwards, with a point inside the interval. -/
def Interval.coarsest (around : Interval) : Nat → Int → Decimal
  | 0, exponent => ⟨around.value / around.denominator, exponent⟩
  | steps + 1, exponent =>
    match around.onGrid? exponent with
    | some digits => ⟨digits, exponent⟩
    | none => around.coarsest steps (exponent - 1)

/-- The shortest decimal that reads back as the magnitude of a finite double. -/
def shortest (x : Binary64) : Decimal :=
  if x.significand = 0 then ⟨0, 0⟩
  else
    let around := Interval.of x
    around.coarsest 700 (Nat.repr (around.value / around.denominator)).length

def zeros (count : Nat) : String :=
  String.ofList (List.replicate count '0')

/-- Digits, with a point only where there are decimal places, never an exponent. -/
def positional (d : Decimal) : String :=
  let digits := Nat.repr d.digits
  if 0 ≤ d.exponent then digits ++ zeros d.exponent.toNat
  else
    let places := (-d.exponent).toNat
    if places < digits.length then
      let whole := digits.toList.take (digits.length - places)
      let rest := digits.toList.drop (digits.length - places)
      String.ofList whole ++ "." ++ String.ofList rest
    else "0." ++ zeros (places - digits.length) ++ digits

end Decimal

namespace Binary64

/-- A whole number as a 64-bit signed integer, the bounds standing for what lies beyond them. -/
def saturated (negative : Bool) (magnitude : Nat) : Int :=
  if negative then -(min magnitude (Nat.pow 2 63) : Nat) else (min magnitude (Nat.pow 2 63 - 1) : Nat)

def intText (n : Int) : String :=
  if n < 0 then "-" ++ Nat.repr n.natAbs else Nat.repr n.natAbs

/-- The shortest positional text, with the names of what is no number. -/
def positional (x : Binary64) : String :=
  if x.isNaN then "NaN"
  else
    let sign := if x.isNegative then "-" else ""
    if x.isFinite then sign ++ (Decimal.shortest x).positional else sign ++ "inf"

/-- The text of a number in a program. -/
def numeral (x : Binary64) : String :=
  match x.whole? with
  | some magnitude =>
    if magnitude < Nat.pow 10 21 then intText (saturated x.isNegative magnitude) else x.positional
  | none => x.positional

end Binary64

end CompanionBuild
