import Mathlib.Tactic.Ring
import Scriptlet.Numeric.Binary64

/-!
# Rounding

Rounding keeps the order of what is rounded (`roundUnits_mono`): within one binade because the
nearest whole number does, and across binades because a power of two is rounded to itself.
-/

namespace Scriptlet.Binary64

/-- A whole quotient is left as it is. -/
lemma roundQuotient_mul (whole : Nat) {den : Nat} (pos : 0 < den) :
    roundQuotient (whole * den) den = whole := by
  have rest : whole * den % den = 0 := Nat.mul_mod_left whole den
  rw [roundQuotient, rest, Nat.mul_div_cancel _ pos]
  simp [Nat.ne_of_lt pos]

/-- Rounding a quotient does not go below the floor. -/
lemma div_le_roundQuotient (num den : Nat) : num / den ≤ roundQuotient num den := by
  rw [roundQuotient]
  split <;> omega

/-- Rounding a quotient goes at most one above the floor. -/
lemma roundQuotient_le (num den : Nat) : roundQuotient num den ≤ num / den + 1 := by
  rw [roundQuotient]
  split <;> omega

/-- A quotient is rounded up by the part of it behind the point, and if that is one half, by whether
it is even. -/
lemma roundQuotient_eq_succ_iff {num den : Nat} :
    roundQuotient num den = num / den + 1 ↔
      den < 2 * (num % den) ∨ 2 * (num % den) = den ∧ num / den % 2 = 1 := by
  rw [roundQuotient]
  split
  · rename_i up
    simpa using up
  · rename_i stays
    simpa using stays

/-- Rounding a quotient keeps the order of the dividends. -/
lemma roundQuotient_mono {num num' : Nat} (le : num ≤ num') (den : Nat) :
    roundQuotient num den ≤ roundQuotient num' den := by
  rcases Nat.lt_or_eq_of_le (Nat.div_le_div_right (c := den) le) with lt | same
  · calc roundQuotient num den ≤ num / den + 1 := roundQuotient_le num den
      _ ≤ num' / den := lt
      _ ≤ roundQuotient num' den := div_le_roundQuotient num' den
  · -- with equal whole parts the parts behind the point are in order
    have rest : num % den ≤ num' % den := by
      have split := Nat.div_add_mod num den
      have split' := Nat.div_add_mod num' den
      rw [same] at split
      omega
    have down := div_le_roundQuotient num' den
    rcases Nat.lt_or_eq_of_le (roundQuotient_le num den) with lt | up
    · omega
    · have up' : roundQuotient num' den = num' / den + 1 := by
        rw [roundQuotient_eq_succ_iff] at up ⊢
        omega
      omega

/-- The number of binary digits grows with the number. -/
lemma log2_mono {m n : Nat} (le : m ≤ n) : m.log2 ≤ n.log2 := by
  rcases Nat.eq_zero_or_pos m with rfl | pos
  · exact Nat.zero_le _
  · rw [Nat.le_log2 (by omega)]
    exact Nat.le_trans (Nat.log2_self_le (Nat.ne_of_gt pos)) le

/-- The last binary digit that is kept of a number of units. -/
def lastDigit (units : Nat) : Nat :=
  Nat.pow 2 (units.log2 + 1 - precision)

/-- The last kept digit is a power of two. -/
lemma lastDigit_pos (units : Nat) : 0 < lastDigit units :=
  Nat.pow_pos Nat.two_pos

/-- Units are rounded to a multiple of the last kept digit. -/
lemma roundUnits_eq (num den : Nat) :
    roundUnits num den =
      roundQuotient num (den * lastDigit (num / den)) * lastDigit (num / den) :=
  rfl

/-- A number of units with no binary digit behind the last one that is kept is left as it is. -/
lemma roundUnits_of_dvd {units : Nat} (whole : lastDigit units ∣ units) :
    roundUnits units 1 = units := by
  obtain ⟨times, split⟩ := whole
  have times_mul : units = times * lastDigit units := by
    rw [Nat.mul_comm]
    exact split
  rw [roundUnits_eq, Nat.div_one, Nat.one_mul]
  calc roundQuotient units (lastDigit units) * lastDigit units
      = roundQuotient (times * lastDigit units) (lastDigit units) * lastDigit units := by
        rw [← times_mul]
    _ = units := by rw [roundQuotient_mul times (lastDigit_pos units), ← times_mul]

/-- The powers of two around a number of units have no binary digit behind the last one that is kept
of it. -/
lemma lastDigit_dvd_pow {units digits : Nat} (le : units.log2 ≤ digits) :
    lastDigit units ∣ 2 ^ digits :=
  Nat.pow_dvd_pow 2 (by rw [precision]; omega)

/-- Nothing is rounded below the power of two at or below it. -/
lemma le_roundUnits {num den : Nat} (nonzero : num / den ≠ 0) :
    2 ^ (num / den).log2 ≤ roundUnits num den := by
  obtain ⟨times, split⟩ := lastDigit_dvd_pow (Nat.le_refl (num / den).log2)
  have kept : times ≤ num / (den * lastDigit (num / den)) := by
    rw [← Nat.div_div_eq_div_mul, Nat.le_div_iff_mul_le (lastDigit_pos _), Nat.mul_comm, ← split]
    exact Nat.log2_self_le nonzero
  calc 2 ^ (num / den).log2 = times * lastDigit (num / den) := by rw [split, Nat.mul_comm]
    _ ≤ roundUnits num den :=
      Nat.mul_le_mul_right _ (Nat.le_trans kept (div_le_roundQuotient _ _))

/-- Nothing is rounded above the power of two above it. -/
lemma roundUnits_le {num den : Nat} (pos : 0 < den) :
    roundUnits num den ≤ 2 ^ ((num / den).log2 + 1) := by
  obtain ⟨times, split⟩ := lastDigit_dvd_pow (Nat.le_succ (num / den).log2)
  have below : num ≤ times * (den * lastDigit (num / den)) :=
    calc num ≤ 2 ^ ((num / den).log2 + 1) * den :=
        Nat.le_of_lt ((Nat.div_lt_iff_lt_mul pos).1 Nat.lt_log2_self)
      _ = times * (den * lastDigit (num / den)) := by
        rw [split]
        ring
  have scale : 0 < den * lastDigit (num / den) := Nat.mul_pos pos (lastDigit_pos _)
  have rounded : roundQuotient num (den * lastDigit (num / den)) ≤ times :=
    Nat.le_trans (roundQuotient_mono below _) (Nat.le_of_eq (roundQuotient_mul times scale))
  calc roundUnits num den ≤ times * lastDigit (num / den) := Nat.mul_le_mul_right _ rounded
    _ = 2 ^ ((num / den).log2 + 1) := by rw [split, Nat.mul_comm]

/-- Rounding keeps the order. -/
theorem roundUnits_mono {num num' den : Nat} (pos : 0 < den) (le : num ≤ num') :
    roundUnits num den ≤ roundUnits num' den := by
  have quotients : num / den ≤ num' / den := Nat.div_le_div_right le
  rcases Nat.lt_or_eq_of_le (log2_mono quotients) with lower | same
  · have nonzero : num' / den ≠ 0 := by
      intro zero
      rw [zero] at lower
      exact Nat.not_lt_zero _ lower
    calc roundUnits num den ≤ 2 ^ ((num / den).log2 + 1) :=
        roundUnits_le pos
      _ ≤ 2 ^ (num' / den).log2 := Nat.pow_le_pow_right Nat.two_pos lower
      _ ≤ roundUnits num' den := le_roundUnits nonzero
  · have digit : lastDigit (num / den) = lastDigit (num' / den) := by
      rw [lastDigit, lastDigit, same]
    rw [roundUnits_eq, roundUnits_eq, digit]
    exact Nat.mul_le_mul_right _ (roundQuotient_mono le _)

/-- One is a power of two of units, and so is what overflows, far above it. -/
lemma exists_powers : ∃ point top, unitsPerOne = Nat.pow 2 point ∧ overflowUnits = Nat.pow 2 top ∧
    precision + point < top ∧ point < 1200 ∧ top ≤ 1200 + point := by
  refine ⟨1074, 2098, ?_, ?_, by decide⟩
  · delta unitsPerOne
    exact Eq.refl _
  · delta overflowUnits
    exact Eq.refl _

/-- One has units. -/
lemma unitsPerOne_pos : 0 < unitsPerOne := by
  obtain ⟨point, -, one, -⟩ := exists_powers
  rw [one]
  exact Nat.pow_pos Nat.two_pos

end Scriptlet.Binary64
