import CompanionBuild.Tree.Printer
import Mathlib

/-! # Whole numbers and their numerals

A finite double is a rational number. A whole one below `10 ^ 21` is written through the 64-bit integers, so its numeral
is exact inside their range and that of the nearest end outside. Two such numbers are written alike only when they are
the same, or both lie at or beyond the same end; `2 ^ 63 - 1` itself, the upper end, is no double.
-/

namespace CompanionBuild

namespace Binary64

/-! ## The value of a double -/

/-- The number that a finite double is. -/
def value (x : Binary64) : ℚ :=
  (if x.isNegative then -1 else 1) * x.significand * 2 ^ ((x.scale : ℤ) - (1074 : ℕ))

/-- The value of a finite double, counted in the least positive one. -/
def signedUnits (x : Binary64) : ℤ :=
  if x.isNegative then -x.units else x.units

theorem natAbs_signedUnits (x : Binary64) : x.signedUnits.natAbs = x.units := by
  unfold signedUnits
  split <;> simp

/-- How many units make the number one. -/
def one : ℕ :=
  Nat.pow 2 1074

-- the exponent is generalized wherever `one` is unfolded, so that the power is never computed
theorem one_pos : 0 < one := by
  unfold one
  generalize 1074 = least
  exact Nat.two_pow_pos least

theorem whole?_eq_ite (x : Binary64) :
    x.whole? = if x.isFinite = true ∧ x.units % one = 0 then some (x.units / one) else none := by
  unfold whole? one
  generalize 1074 = least
  rfl

theorem two_zpow_sub_mul (scale least : ℕ) : (2 : ℚ) ^ ((scale : ℤ) - least) * (Nat.pow 2 least : ℕ) = 2 ^ scale := by
  rw [Nat.pow_eq, Nat.cast_pow, Nat.cast_ofNat, ← zpow_natCast, ← zpow_add₀ two_ne_zero, sub_add_cancel, zpow_natCast]

theorem value_mul (x : Binary64) : x.value * one = x.signedUnits := by
  have counted : (x.units : ℚ) = x.significand * 2 ^ x.scale := by
    rw [units, Nat.pow_eq, Nat.cast_mul, Nat.cast_pow, Nat.cast_ofNat]
  have shift : (2 : ℚ) ^ ((x.scale : ℤ) - (1074 : ℕ)) * one = 2 ^ x.scale := by
    unfold one
    generalize 1074 = least
    exact two_zpow_sub_mul x.scale least
  rw [value, mul_assoc, shift, mul_assoc, ← counted, signedUnits]
  split <;> simp

/-- A double is a whole number when it has as many units as that number of ones. -/
theorem value_eq_iff {x : Binary64} {n : ℤ} : x.value = n ↔ x.signedUnits = n * one := by
  rw [← mul_left_inj' (Nat.cast_ne_zero.mpr one_pos.ne' : (one : ℚ) ≠ 0), value_mul]
  exact_mod_cast Iff.rfl

/-- The double is finite and the whole number. -/
structure IsWhole (x : Binary64) (n : ℤ) : Prop where
  finite : x.isFinite = true
  value : x.value = n

namespace IsWhole

variable {x : Binary64} {n : ℤ} (whole : x.IsWhole n)

include whole

theorem units_eq : x.units = n.natAbs * one := by
  rw [← natAbs_signedUnits, value_eq_iff.mp whole.value, Int.natAbs_mul, Int.natAbs_natCast]

theorem whole?_eq : x.whole? = some n.natAbs := by
  have counted := whole.units_eq
  rw [whole?_eq_ite, if_pos ⟨whole.finite, by rw [counted, Nat.mul_mod_left]⟩, counted, Nat.mul_div_cancel _ one_pos]

/-- The sign of the double is that of the number; zero has two. -/
theorem eq_natAbs : n = if x.isNegative then -(n.natAbs : ℤ) else n.natAbs := by
  have positive : (0 : ℤ) < one := Int.natCast_pos.mpr one_pos
  have counted := value_eq_iff.mp whole.value
  unfold signedUnits at counted
  split at counted
  case isTrue negative =>
    have below : n ≤ 0 := by
      by_contra above
      have product := mul_pos (not_le.mp above) positive
      omega
    rw [if_pos negative]
    omega
  case isFalse plus =>
    have above : 0 ≤ n := by
      by_contra below
      have product := mul_neg_of_neg_of_pos (not_le.mp below) positive
      omega
    rw [if_neg plus]
    omega

end IsWhole

theorem significand_lt (x : Binary64) : x.significand < 2 ^ 53 := by
  have small : x.fraction < 2 ^ 52 := Nat.mod_lt _ (by decide)
  have power : Nat.pow 2 52 = 2 ^ 52 := rfl
  unfold significand
  split <;> omega

/-- A number with more binary digits than a significand is even when it is one at some scale. -/
theorem even_of_scaled {significand scale least n : ℕ} (same : significand * Nat.pow 2 scale = n * Nat.pow 2 least)
    (short : significand < n) : 2 ∣ n := by
  rw [Nat.pow_eq, Nat.pow_eq] at same
  obtain fine | ⟨extra, coarse⟩ : scale ≤ least ∨ ∃ extra, scale = extra + 1 + least := by
    by_cases fine : scale ≤ least
    · exact .inl fine
    · exact .inr ⟨scale - least - 1, by omega⟩
  · have bound : n * 2 ^ least ≤ significand * 2 ^ least := by
      rw [← same]
      exact Nat.mul_le_mul_left _ (Nat.pow_le_pow_right two_pos fine)
    have low := Nat.le_of_mul_le_mul_right bound (Nat.two_pow_pos least)
    omega
  · rw [coarse, Nat.pow_add, ← Nat.mul_assoc] at same
    have doubled := Nat.eq_of_mul_eq_mul_right (Nat.two_pow_pos least) same
    rw [← doubled, Nat.pow_succ, ← Nat.mul_assoc]
    exact Nat.dvd_mul_left 2 _

/-- The whole doubles from `2 ^ 53` on are even. -/
theorem IsWhole.even_of_le {x : Binary64} {n : ℤ} (whole : x.IsWhole n) (large : 2 ^ 53 ≤ n) : 2 ∣ n := by
  have counted := whole.units_eq
  have short := x.significand_lt
  unfold units one at counted
  generalize 1074 = least at counted
  have even := even_of_scaled counted (by omega)
  omega

/-! ## Numerals of whole numbers -/

/-- A number, or the end of the 64-bit integers that is nearest to it. -/
def clamped (n : ℤ) : ℤ :=
  max (-2 ^ 63) (min n (2 ^ 63 - 1))

theorem intText_eq_repr (n : ℤ) : intText n = n.repr := by
  rw [intText, Int.repr_eq_if]
  by_cases negative : n < 0
  · have magnitude : n.natAbs = (-n).toNat := by omega
    rw [if_pos negative, if_neg (by omega), magnitude]
  · have magnitude : n.natAbs = n.toNat := by omega
    rw [if_neg negative, if_pos (by omega), magnitude]

theorem IsWhole.saturated_eq {x : Binary64} {n : ℤ} (whole : x.IsWhole n) :
    saturated x.isNegative n.natAbs = clamped n := by
  have sign := whole.eq_natAbs
  have power : Nat.pow 2 63 = 2 ^ 63 := rfl
  rw [saturated, clamped, power]
  split
  case isTrue negative =>
    rw [if_pos negative] at sign
    omega
  case isFalse plus =>
    rw [if_neg plus] at sign
    omega

/-- A whole number below `10 ^ 21` is written as the 64-bit integer nearest to it. -/
theorem IsWhole.numeral_eq {x : Binary64} {n : ℤ} (whole : x.IsWhole n) (small : |n| < 10 ^ 21) :
    x.numeral = (clamped n).repr := by
  have bound : n.natAbs < Nat.pow 10 21 := by
    have power : Nat.pow 10 21 = 10 ^ 21 := rfl
    have between := abs_lt.mp small
    omega
  rw [numeral, whole.whole?_eq]
  dsimp only
  rw [if_pos bound, whole.saturated_eq, intText_eq_repr]

/-- Both numbers lie beyond the same end of the 64-bit integers, or on the lower one. -/
def SameEnd (n m : ℤ) : Prop :=
  2 ^ 63 ≤ n ∧ 2 ^ 63 ≤ m ∨ n ≤ -2 ^ 63 ∧ m ≤ -2 ^ 63

theorem clamped_eq_self_iff {n : ℤ} : clamped n = n ↔ -2 ^ 63 ≤ n ∧ n < 2 ^ 63 := by
  unfold clamped
  omega

theorem IsWhole.ne_upperEnd {x : Binary64} {n : ℤ} (whole : x.IsWhole n) : n ≠ 2 ^ 63 - 1 := by
  rintro rfl
  have even := whole.even_of_le (by norm_num)
  omega

section

variable {x y : Binary64} {n m : ℤ} (first : x.IsWhole n) (second : y.IsWhole m)

include first second

theorem clamped_eq_clamped_iff : clamped n = clamped m ↔ n = m ∨ SameEnd n m := by
  have left := first.ne_upperEnd
  have right := second.ne_upperEnd
  unfold clamped SameEnd
  omega

variable (firstSmall : |n| < 10 ^ 21) (secondSmall : |m| < 10 ^ 21)

include firstSmall secondSmall

theorem numeral_eq_numeral_iff : x.numeral = y.numeral ↔ n = m ∨ SameEnd n m := by
  rw [first.numeral_eq firstSmall, second.numeral_eq secondSmall, Int.repr_inj, clamped_eq_clamped_iff first second]

/-- A whole number below `10 ^ 21` is written as its decimal numeral exactly when it is a 64-bit integer. Two of them
look the same, as values, as types and as names of properties, exactly when they are the same or both lie at or beyond
one end of the 64-bit integers. -/
theorem whole_numerals_exact_iff :
    (x.numeral = n.repr ↔ -2 ^ 63 ≤ n ∧ n < 2 ^ 63) ∧
    ((Literal.number x).text = (Literal.number y).text ↔ n = m ∨ SameEnd n m) ∧
    ((LiteralType.number x).text = (LiteralType.number y).text ↔ n = m ∨ SameEnd n m) ∧
    ((PropertyName.number x).text? = (PropertyName.number y).text? ↔ n = m ∨ SameEnd n m) := by
  have alike := numeral_eq_numeral_iff first second firstSmall secondSmall
  refine ⟨?_, alike, alike, Option.some_inj.trans alike⟩
  rw [first.numeral_eq firstSmall, Int.repr_inj, clamped_eq_self_iff]

end

/-- The numbers `10 ^ 19` and `2 * 10 ^ 19` look the same; `-20` is written as it is. -/
theorem large_numbers_look_the_same :
    (⟨0x43e158e460913d00⟩ : Binary64).IsWhole (10 ^ 19) ∧ (⟨0x43f158e460913d00⟩ : Binary64).IsWhole (2 * 10 ^ 19) ∧
      (⟨0x43e158e460913d00⟩ : Binary64).numeral ≠ "10000000000000000000" ∧
      (PropertyName.number ⟨0x43e158e460913d00⟩).text? = (PropertyName.number ⟨0x43f158e460913d00⟩).text? ∧
      (⟨0xc034000000000000⟩ : Binary64).numeral = "-20" := by
  have ten : (⟨0x43e158e460913d00⟩ : Binary64).IsWhole (10 ^ 19) := ⟨by decide, value_eq_iff.mpr (by decide +kernel)⟩
  have twenty : (⟨0x43f158e460913d00⟩ : Binary64).IsWhole (2 * 10 ^ 19) :=
    ⟨by decide, value_eq_iff.mpr (by decide +kernel)⟩
  have below : (⟨0xc034000000000000⟩ : Binary64).IsWhole (-20) := ⟨by decide, value_eq_iff.mpr (by decide +kernel)⟩
  obtain ⟨precise, -, -, named⟩ := whole_numerals_exact_iff ten twenty (by decide) (by decide)
  have written := (whole_numerals_exact_iff below ten (by decide) (by decide)).1.mpr (by decide)
  refine ⟨ten, twenty, ?_, named.mpr (.inr (.inl (by decide))), written⟩
  intro same
  have text : (10 ^ 19 : ℤ).repr = "10000000000000000000" := by decide +kernel
  have inside := precise.mp (same.trans text.symm)
  omega

end Binary64

end CompanionBuild
