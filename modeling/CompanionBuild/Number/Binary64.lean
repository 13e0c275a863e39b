/-! # Double-precision numbers

A double is its 64 bits. A finite double is a significand times a power of two, and everything said about its value is
said in natural numbers: `|x| = significand * 2 ^ scale / 2 ^ 1074`.
-/

namespace CompanionBuild

structure Binary64 where
  bits : UInt64
deriving DecidableEq, Inhabited

namespace Binary64

def isNegative (x : Binary64) : Bool :=
  Nat.pow 2 63 ≤ x.bits.toNat

def exponentField (x : Binary64) : Nat :=
  x.bits.toNat / Nat.pow 2 52 % 2048

def fraction (x : Binary64) : Nat :=
  x.bits.toNat % Nat.pow 2 52

def isFinite (x : Binary64) : Bool :=
  x.exponentField < 2047

def isNaN (x : Binary64) : Bool :=
  x.exponentField = 2047 && x.fraction ≠ 0

def significand (x : Binary64) : Nat :=
  if x.exponentField = 0 then x.fraction else Nat.pow 2 52 + x.fraction

/-- The power of two above the least one, `2 ^ -1074`. -/
def scale (x : Binary64) : Nat :=
  x.exponentField - 1

/-- The magnitude of a finite double, counted in the least positive one. -/
def units (x : Binary64) : Nat :=
  x.significand * Nat.pow 2 x.scale

/-- The magnitude of a whole number. -/
def whole? (x : Binary64) : Option Nat :=
  if x.isFinite ∧ x.units % Nat.pow 2 1074 = 0 then some (x.units / Nat.pow 2 1074) else none

/-- The double of given sign and magnitude bits. -/
def withSign (negative : Bool) (magnitude : Nat) : Binary64 :=
  ⟨UInt64.ofNat (if negative then Nat.pow 2 63 + magnitude else magnitude)⟩

/-- The significand nearest to `numerator / denominator`, a half going to the even one. -/
def roundHalfEven (numerator denominator : Nat) : Nat :=
  let floor := numerator / denominator
  let rest := 2 * (numerator % denominator)
  if rest > denominator ∨ rest = denominator ∧ floor % 2 = 1 then floor + 1 else floor

/-- The magnitude bits of the double nearest to a ratio, none when it lies beyond the finite doubles. -/
def nearestRatio? (numerator denominator : Nat) : Option Nat :=
  let least := numerator * Nat.pow 2 1074
  let scale := Nat.log2 (least / denominator) - 52
  let rounded := roundHalfEven least (denominator * Nat.pow 2 scale)
  let magnitude := scale * Nat.pow 2 52 + rounded
  if magnitude < 2047 * Nat.pow 2 52 then some magnitude else none

/-- The double nearest to a whole number, none beyond the finite doubles. -/
def ofInt? (n : Int) : Option Binary64 :=
  (nearestRatio? n.natAbs 1).map (withSign (n < 0))

/-- The product of two finite doubles, rounded, none beyond the finite doubles. -/
def times? (x y : Binary64) : Option Binary64 :=
  (nearestRatio? (x.units * y.units) (Nat.pow 2 2148)).map (withSign (x.isNegative != y.isNegative))

/-- The quotient of two finite doubles, rounded, none beyond the finite doubles; the divisor is not zero. -/
def over? (x y : Binary64) : Option Binary64 :=
  (nearestRatio? x.units y.units).map (withSign (x.isNegative != y.isNegative))

/-- The double nearest to a power of ten up to the greatest finite one, `10 ^ 308`. -/
def tenTo (power : Nat) : Binary64 :=
  withSign false ((nearestRatio? (Nat.pow 10 power) 1).getD 0)

end Binary64

end CompanionBuild
