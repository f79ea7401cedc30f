import Mathlib.Algebra.Order.Field.Power
import Scriptlet.Numeric.Decimal
import Scriptlet.Proofs.Numeric.Nearest

/-!
# Decimals and the numbers nearest to them

A decimal reads as the number of the format that is nearest to it (`toBinary64_nearest`), also where
its power of ten is so large or so small that it is not computed.
-/

namespace Scriptlet.Decimal

open Binary64 (Closest NearestTo unitsPerOne overflowUnits)

variable {negative : Bool} {size : ℚ}

/-- How far the decimal is from zero. -/
def magnitude (d : Decimal) : ℚ :=
  d.digits * 10 ^ d.exponent

/-- The units of a decimal are the nearest ones. -/
lemma units_closest (digits : Nat) (exponent : Int) :
    Closest (units digits exponent) (digits * 10 ^ exponent * unitsPerOne) := by
  rw [units]
  by_cases low : exponent < 0
  · have inverse : (10 : ℚ) ^ exponent = ((10 : ℚ) ^ exponent.natAbs)⁻¹ := by
      rw [← zpow_natCast, ← zpow_neg]
      congr 1
      omega
    have exact : (digits : ℚ) * 10 ^ exponent * unitsPerOne =
        ((digits * unitsPerOne : Nat) : ℚ) / ((10 ^ exponent.natAbs : Nat) : ℚ) := by
      rw [inverse]
      push_cast
      ring
    rw [if_pos low, exact]
    exact Binary64.roundUnits_closest _ (Nat.pow_pos (by decide))
  · have direct : (10 : ℚ) ^ exponent = (10 : ℚ) ^ exponent.natAbs := by
      rw [← zpow_natCast]
      congr 1
      omega
    have exact : (digits : ℚ) * 10 ^ exponent * unitsPerOne =
        ((digits * 10 ^ exponent.natAbs * unitsPerOne : Nat) : ℚ) / ((1 : Nat) : ℚ) := by
      rw [direct]
      push_cast
      ring
    rw [if_neg low, exact]
    exact Binary64.roundUnits_closest _ Nat.one_pos

/-- A power of ten that is large is above the power of two with three times its exponent. -/
lemma two_pow_le (power : Nat) : (2 : ℚ) ^ (3 * power) ≤ 10 ^ power := by
  rw [pow_mul]
  exact pow_le_pow_left₀ (by norm_num) (by norm_num) power

/-- The reach of the format: what is below the inverse of a huge power of ten is less than half a unit,
and what is not below that power overflows. -/
lemma reach : ((10 : ℚ) ^ (-hugePower)) * unitsPerOne ≤ 1 / 2 ∧
    (overflowUnits : ℚ) ≤ 10 ^ hugePower * unitsPerOne := by
  obtain ⟨point, top, one, overflow, -, low, high⟩ := Binary64.exists_powers
  obtain ⟨power, huge, three⟩ : ∃ power : Nat, hugePower = power ∧ 3 * power = 1200 := ⟨400, rfl, rfl⟩
  rw [← three] at low high
  have positive : (0 : ℚ) < 10 ^ power := by positivity
  have far := two_pow_le power
  rw [zpow_neg, huge, zpow_natCast, one, overflow, Nat.pow_eq, Nat.pow_eq]
  push_cast
  constructor
  · have near : (2 : ℚ) ^ (point + 1) ≤ 2 ^ (3 * power) := pow_le_pow_right₀ (by norm_num) low
    rw [pow_succ] at near
    rw [inv_mul_le_iff₀ positive]
    linarith
  · calc (2 : ℚ) ^ top ≤ 2 ^ (3 * power + point) := pow_le_pow_right₀ (by norm_num) high
      _ = 2 ^ (3 * power) * 2 ^ point := pow_add _ _ _
      _ ≤ 10 ^ power * 2 ^ point := mul_le_mul_of_nonneg_right far (by positivity)

/-- There are units in one. -/
lemma unitsPerOne_cast_pos : (0 : ℚ) < unitsPerOne := by
  exact_mod_cast Binary64.unitsPerOne_pos

/-- What is below the inverse of a huge power of ten reads as zero. -/
lemma nearest_zero (positive : 0 ≤ size) (tiny : size < 10 ^ (-hugePower)) :
    (Binary64.finite negative 0).NearestTo negative size :=
  .zero positive ((mul_lt_mul_of_pos_right tiny unitsPerOne_cast_pos).trans_le reach.1)

/-- What is not below a huge power of ten reads as the infinity. -/
lemma nearest_infinite (huge : 10 ^ hugePower ≤ size) :
    (Binary64.infinite negative).NearestTo negative size :=
  .infinite (reach.2.trans (mul_le_mul_of_nonneg_right huge unitsPerOne_cast_pos.le))

/-- No magnitude is negative. -/
lemma magnitude_nonneg (d : Decimal) : 0 ≤ d.magnitude := by
  rw [Decimal.magnitude]
  positivity

/-- A decimal of many digits is at least the power of ten that has as many. -/
lemma pow_le_magnitude {d : Decimal} {count : Nat} (many : 10 ^ count ≤ d.digits) {power : Int}
    (le : power ≤ count + d.exponent) : 10 ^ power ≤ d.magnitude := by
  have above : (10 : ℚ) ^ count ≤ d.digits := by exact_mod_cast many
  calc (10 : ℚ) ^ power ≤ (10 : ℚ) ^ ((count : Int) + d.exponent) :=
      zpow_le_zpow_right₀ (by norm_num) le
    _ = 10 ^ count * 10 ^ d.exponent := by
      rw [zpow_add₀ (by norm_num), zpow_natCast]
    _ ≤ d.magnitude := mul_le_mul_of_nonneg_right above (by positivity)

/-- A decimal that is not zero is at least its power of ten. -/
lemma le_magnitude {d : Decimal} (some : d.digits ≠ 0) {power : Int} (le : power ≤ d.exponent) :
    10 ^ power ≤ d.magnitude := by
  have one : 10 ^ 0 ≤ d.digits := Nat.one_le_iff_ne_zero.2 some
  exact pow_le_magnitude one (by omega)

/-- A decimal of few digits is below the power of ten that has one digit more. -/
lemma magnitude_lt {d : Decimal} {count : Nat} (few : d.digits < 10 ^ count) {power : Int}
    (le : count + d.exponent ≤ power) : d.magnitude < 10 ^ power := by
  have below : (d.digits : ℚ) < 10 ^ count := by exact_mod_cast few
  calc d.magnitude < (10 : ℚ) ^ count * 10 ^ d.exponent :=
      mul_lt_mul_of_pos_right below (by positivity)
    _ = (10 : ℚ) ^ ((count : Int) + d.exponent) := by
      rw [zpow_add₀ (by norm_num), zpow_natCast]
    _ ≤ 10 ^ power := zpow_le_zpow_right₀ (by norm_num) le

/-- Without digits other than zero, the magnitude is zero. -/
lemma magnitude_eq_zero {d : Decimal} (none : d.digits = 0) : d.magnitude = 0 := by
  rw [Decimal.magnitude, none, Nat.cast_zero, zero_mul]

/-- A decimal reads as the number nearest to it. -/
theorem toBinary64_nearest (d : Decimal) : d.toBinary64.NearestTo d.negative d.magnitude := by
  rw [toBinary64]
  split
  · -- no digit is other than zero
    rename_i none
    refine nearest_zero d.magnitude_nonneg ?_
    rw [magnitude_eq_zero none]
    positivity
  · rename_i some
    split
    · -- the exponent alone is out of reach
      rename_i large
      exact nearest_infinite (le_magnitude some large)
    · split
      · -- all digits together do not make up for the exponent: there are no more decimal than binary ones
        rename_i small
        have few : d.digits < 10 ^ (d.digits.log2 + 1) :=
          Nat.lt_of_lt_of_le Nat.lt_log2_self (Nat.pow_le_pow_left (by decide) _)
        exact nearest_zero d.magnitude_nonneg (magnitude_lt few (by push_cast; omega))
      · exact ⟨_, units_closest d.digits d.exponent, rfl⟩

end Scriptlet.Decimal
