import Mathlib.Data.Rat.Floor
import Mathlib.Tactic.FieldSimp
import Mathlib.Tactic.Linarith
import Scriptlet.Proofs.Checked.Numbers

/-!
# Division of integers

Integers of 64 bits are divided as the integers are: the quotient is the floor of the exact one and the
remainder has the sign of the divisor (`integers_divide_exactly`), though both are made of a division
that rounds toward zero and a correction.
-/

namespace Scriptlet

section Exact

variable {m n : Int}

/-- A remainder is smaller than the divisor and is zero or on its side of zero. -/
lemma fmod_between (nonzero : n ≠ 0) :
    (m.fmod n).natAbs < n.natAbs ∧ (m.fmod n = 0 ∨ (m.fmod n < 0 ↔ n < 0)) := by
  have size : (m.tmod n).natAbs < n.natAbs := by
    rw [Int.natAbs_tmod]
    exact Nat.mod_lt _ (Int.natAbs_pos.2 nonzero)
  rw [fmod_eq_step nonzero]
  split <;> omega

/-- A remainder that is not zero has the sign of the divisor. -/
lemma sign_fmod (nonzero : n ≠ 0) : m.fmod n = 0 ∨ (m.fmod n).sign = n.sign := by
  rcases (fmod_between (m := m) nonzero).2 with zero | side
  · exact .inl zero
  · rcases Int.lt_or_gt_of_ne nonzero with negative | positive
    · right
      rw [Int.sign_eq_neg_one_of_neg (side.2 negative), Int.sign_eq_neg_one_of_neg negative]
    · rcases Int.lt_trichotomy (m.fmod n) 0 with below | zero | above
      · exact absurd (side.1 below) (by omega)
      · exact .inl zero
      · right
        rw [Int.sign_eq_one_of_pos above, Int.sign_eq_one_of_pos positive]

/-- A quotient rounded down is the floor of the exact quotient. -/
lemma floor_div (nonzero : n ≠ 0) : ⌊(m : ℚ) / n⌋ = m.fdiv n := by
  have exact_nonzero : (n : ℚ) ≠ 0 := Int.cast_ne_zero.2 nonzero
  have split : (m : ℚ) / n = m.fdiv n + (m.fmod n : ℚ) / n := by
    have whole : (m : ℚ) = n * m.fdiv n + m.fmod n := by
      exact_mod_cast (Int.mul_fdiv_add_fmod m n).symm
    rw [div_eq_iff exact_nonzero, add_mul, div_mul_cancel₀ _ exact_nonzero]
    linarith
  obtain ⟨size, side⟩ := fmod_between (m := m) nonzero
  rw [Int.floor_eq_iff, split]
  rcases Int.lt_or_gt_of_ne nonzero with negative | positive
  · have below : (n : ℚ) < 0 := by exact_mod_cast negative
    have low : (m.fmod n : ℚ) ≤ 0 := by exact_mod_cast (by omega : m.fmod n ≤ 0)
    have high : (n : ℚ) < m.fmod n := by exact_mod_cast (by omega : n < m.fmod n)
    have part := div_nonneg_of_nonpos low below.le
    have less := (div_lt_one_of_neg below).2 high
    constructor <;> linarith
  · have above : (0 : ℚ) < n := by exact_mod_cast positive
    have low : (0 : ℚ) ≤ m.fmod n := by exact_mod_cast (by omega : 0 ≤ m.fmod n)
    have high : (m.fmod n : ℚ) < n := by exact_mod_cast (by omega : m.fmod n < n)
    have part := div_nonneg low above.le
    have less := (div_lt_one above).2 high
    constructor <;> linarith

end Exact

namespace Number

variable {m n : Int64}

/-- There is a quotient of 64 bits, but for the smallest integer by minus one. -/
lemma exists_fdiv (nonzero : n ≠ 0) (fits : ¬ (m = .minValue ∧ n = -1)) :
    ∃ q : Int64, q.toInt = m.toInt.fdiv n.toInt := by
  cases divides : Steps.div? m n with
  | none => exact absurd (Steps.eq_of_div?_eq_none nonzero divides) fits
  | some q =>
    obtain ⟨zero, quotient⟩ := Steps.toInt_div? divides
    rw [fdiv_eq_step zero, ← quotient]
    split
    · rename_i apart
      obtain ⟨p, -, less⟩ := Steps.exists_sub?_one divides apart.1
      exact ⟨p, less⟩
    · exact ⟨q, rfl⟩

/-- There is always a remainder of 64 bits. -/
lemma exists_fmod (nonzero : n ≠ 0) : ∃ r : Int64, r.toInt = m.toInt.fmod n.toInt := by
  obtain ⟨small, -⟩ := fmod_between (m := m.toInt) (Steps.toInt_ne_zero nonzero)
  have low := n.le_toInt
  have high := n.toInt_lt
  exact ⟨.ofInt _, Int64.toInt_ofInt_of_le (by omega) (by omega)⟩

/-- The floored quotient is an integer unless the divisor is zero or the quotient is one past the
largest integer. -/
lemma floorDiv_of_fits (nonzero : n ≠ 0) (fits : ¬ (m = .minValue ∧ n = -1)) :
    ∃ q, (int m).floorDiv (int n) = .ok (int q) ∧ q.toInt = m.toInt.fdiv n.toInt := by
  obtain ⟨q, same⟩ := exists_fdiv nonzero fits
  exact ⟨q, by rw [floorDiv_int nonzero, ← same, step?_toInt]; rfl, same⟩

/-- The remainder is an integer for every divisor but zero. -/
lemma modulo_of_nonzero (nonzero : n ≠ 0) :
    ∃ r, (int m).modulo (int n) = .ok (int r) ∧ r.toInt = m.toInt.fmod n.toInt := by
  obtain ⟨r, same⟩ := exists_fmod (m := m) nonzero
  exact ⟨r, by rw [modulo_int nonzero, ← same, step?_toInt]; rfl, same⟩

/-- Floored division fails only for the divisor zero. -/
lemma floorDiv_fails_iff : (∃ fault, (int m).floorDiv (int n) = .error fault) ↔ n = 0 := by
  constructor
  · rintro ⟨fault, fails⟩
    by_contra nonzero
    rw [floorDiv_int nonzero] at fails
    cases fails
  · rintro rfl
    exact ⟨.divisionByZero, by rw [floorDiv, if_pos isZero_zero]⟩

/-- So does the remainder. -/
lemma modulo_fails_iff : (∃ fault, (int m).modulo (int n) = .error fault) ↔ n = 0 := by
  constructor
  · rintro ⟨fault, fails⟩
    by_contra nonzero
    rw [modulo_int nonzero] at fails
    cases fails
  · rintro rfl
    exact ⟨.moduloByZero, by rw [modulo, if_pos isZero_zero]⟩

/-- Integers are divided as the integers are: the quotient is the floor of the exact one, and what
remains is smaller than the divisor and is zero or has its sign. Only the smallest integer by minus one
has a quotient that is no integer of 64 bits, and only zero does not divide. No step on the way to a
result has more than 64 bits. -/
theorem integers_divide_exactly (m n : Int64) :
    (n ≠ 0 ∧ ¬ (m = .minValue ∧ n = -1) → ∃ q, (int m).floorDiv (int n) = .ok (int q) ∧
      q.toInt = ⌊(m.toInt : ℚ) / n.toInt⌋) ∧
    (n ≠ 0 → ∃ r, (int m).modulo (int n) = .ok (int r) ∧
      m.toInt = ⌊(m.toInt : ℚ) / n.toInt⌋ * n.toInt + r.toInt ∧ |r.toInt| < |n.toInt| ∧
      (r = 0 ∨ r.toInt.sign = n.toInt.sign)) ∧
    (m = .minValue ∧ n = -1 → (∃ x, (int m).floorDiv (int n) = .ok (float x)) ∧
      (int m).modulo (int n) = .ok (int 0)) ∧
    ((∃ fault, (int m).floorDiv (int n) = .error fault) ↔ n = 0) ∧
    ((∃ fault, (int m).modulo (int n) = .error fault) ↔ n = 0) ∧
    floorDiv? (int m) (int n) = some ((int m).floorDiv (int n)) ∧
    modulo? (int m) (int n) = some ((int m).modulo (int n)) := by
  refine ⟨fun ⟨nonzero, fits⟩ => ?_, fun nonzero => ?_, ?_, floorDiv_fails_iff, modulo_fails_iff,
    floorDiv?_eq _ _, modulo?_eq _ _⟩
  · rw [floor_div (Steps.toInt_ne_zero nonzero)]
    exact floorDiv_of_fits nonzero fits
  · have zero := Steps.toInt_ne_zero nonzero
    obtain ⟨r, remains, same⟩ := modulo_of_nonzero (m := m) nonzero
    refine ⟨r, remains, ?_, ?_, ?_⟩
    · rw [floor_div zero, same, Int.fdiv_mul_add_fmod]
    · rw [same, Int.abs_eq_natAbs, Int.abs_eq_natAbs]
      exact_mod_cast (fmod_between zero).1
    · rw [same]
      refine (sign_fmod zero).imp_left fun none => Int64.toInt.inj ?_
      rw [same, none, Int64.toInt_zero]
  · rintro ⟨rfl, rfl⟩
    refine ⟨⟨_, floorDiv_int (by decide)⟩, ?_⟩
    obtain ⟨r, remains, same⟩ := modulo_of_nonzero (m := .minValue) (n := -1) (by decide)
    have none : r = 0 := Int64.toInt.inj (same.trans (by decide))
    rw [remains, none]

/-- A quotient below zero is rounded away from zero, and what remains is positive like the divisor. -/
theorem minus_seven_by_two : (2 : Int64) ≠ 0 ∧ (int (-7)).floorDiv (int 2) = .ok (int (-4)) ∧
    (int (-7)).modulo (int 2) = .ok (int 1) := by
  have nonzero : (2 : Int64) ≠ 0 := by decide
  have floor : ⌊((-7 : Int64).toInt : ℚ) / (2 : Int64).toInt⌋ = -4 := floor_div (by decide)
  obtain ⟨quotient, remainder, -⟩ := integers_divide_exactly (-7) 2
  obtain ⟨q, divides, least⟩ := quotient ⟨nonzero, by decide⟩
  obtain ⟨r, remains, split, -⟩ := remainder nonzero
  rw [floor] at least split
  have four : q = -4 := Int64.toInt.inj least
  have one : r = 1 := by
    have seven : (-7 : Int64).toInt = -7 := rfl
    have two : (2 : Int64).toInt = 2 := rfl
    rw [seven, two] at split
    exact Int64.toInt.inj (by rw [Int64.toInt_one]; omega)
  exact ⟨nonzero, four ▸ divides, one ▸ remains⟩

end Number

end Scriptlet
