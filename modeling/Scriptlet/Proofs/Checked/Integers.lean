import Mathlib.Tactic.Lemma
import Scriptlet.Numeric.Number

/-!
# Arithmetic in checked steps

Integers of 64 bits are added, subtracted and divided by steps, each of which has a result only if
it has 64 bits. A division that rounds down is made of such steps, and so is counting up to a bound;
where a step is taken without a look at whether it has a result, it has one.
-/

namespace Scriptlet

/-- A step on integers of 64 bits has a result if it is one of them. -/
def step? (n : Int) : Option Int64 :=
  if Number.minInt ≤ n && n ≤ Number.maxInt then some (.ofInt n) else none

namespace Steps

/-- The integer with the other sign. -/
def neg? (a : Int64) : Option Int64 :=
  step? (-a.toInt)

/-- The sum. -/
def add? (a b : Int64) : Option Int64 :=
  step? (a.toInt + b.toInt)

/-- The difference. -/
def sub? (a b : Int64) : Option Int64 :=
  step? (a.toInt - b.toInt)

/-- The quotient, rounded toward zero. There is none by zero. -/
def div? (a b : Int64) : Option Int64 :=
  if b = 0 then none else step? (a.toInt.tdiv b.toInt)

/-- The remainder of that quotient. There is none where there is no quotient. -/
def rem? (a b : Int64) : Option Int64 :=
  (div? a b).bind fun _ => step? (a.toInt.tmod b.toInt)

/-- The integers from the first up to, but not including, the second, at most so many. -/
def range? : (most : Nat) → (start stop : Int64) → Option (List Int64)
  | 0, start, stop => if start < stop then none else some []
  | most + 1, start, stop =>
    if start < stop then do
      let next ← add? start 1
      let rest ← range? most next stop
      some (start :: rest)
    else some []

end Steps

section Division

variable {m n : Int}

/-- A remainder is between zero and what is divided. -/
lemma tmod_between (m n : Int) :
    (0 ≤ m → 0 ≤ m.tmod n ∧ m.tmod n ≤ m) ∧ (m ≤ 0 → m ≤ m.tmod n ∧ m.tmod n ≤ 0) := by
  have size : (m.tmod n).natAbs ≤ m.natAbs := by
    rw [Int.natAbs_tmod]
    exact Nat.mod_le ..
  constructor
  · intro positive
    have sign := Int.tmod_nonneg n positive
    omega
  · intro negative
    have sign := Int.tmod_nonneg n (Int.neg_nonneg_of_nonpos negative)
    rw [Int.neg_tmod] at sign
    omega

/-- A quotient rounded down is one less than one rounded toward zero if there is a remainder and the
signs differ. -/
lemma fdiv_eq_step (nonzero : n ≠ 0) :
    m.fdiv n = if m.tmod n ≠ 0 ∧ ¬ (m < 0 ↔ n < 0) then m.tdiv n - 1 else m.tdiv n := by
  have divides := Int.dvd_iff_tmod_eq_zero (a := n) (b := m)
  rw [Int.fdiv_eq_tdiv]
  rcases Int.lt_or_gt_of_ne nonzero with negative | positive
  · rw [Int.sign_eq_neg_one_of_neg negative]
    grind
  · rw [Int.sign_eq_one_of_pos positive]
    grind

/-- Its remainder has the sign of the divisor. -/
lemma fmod_eq_step (nonzero : n ≠ 0) :
    m.fmod n = if m.tmod n ≠ 0 ∧ ¬ (m.tmod n < 0 ↔ n < 0) then m.tmod n + n else m.tmod n := by
  have divides := Int.dvd_iff_tmod_eq_zero (a := n) (b := m)
  have between := tmod_between m n
  rw [Int.fmod_eq_tmod]
  rcases Int.lt_or_gt_of_ne nonzero with negative | positive
  · grind
  · grind

/-- A quotient by more than one is at most half as large. -/
lemma natAbs_tdiv_le_half (large : 2 ≤ n.natAbs) : (m.tdiv n).natAbs ≤ m.natAbs / 2 := by
  rw [Int.natAbs_tdiv]
  exact Nat.div_le_div_left large Nat.two_pos

/-- There is a remainder only by more than one. -/
lemma two_le_of_tmod_ne_zero (nonzero : n ≠ 0) (remains : m.tmod n ≠ 0) : 2 ≤ n.natAbs := by
  rcases Nat.lt_or_ge n.natAbs 2 with small | large
  · have one : n.natAbs = 1 := by omega
    have size := Int.natAbs_tmod m n
    rw [one, Nat.mod_one] at size
    exact absurd (Int.natAbs_eq_zero.1 size) remains
  · exact large

end Division

/-- A step that goes through is exact. -/
lemma step?_eq_some {n : Int} {m : Int64} : step? n = some m ↔ m.toInt = n := by
  have low := m.le_toInt
  have high := m.toInt_lt
  rw [step?, Option.ite_none_right_eq_some, Bool.and_eq_true, decide_eq_true_eq, decide_eq_true_eq,
    Number.minInt, Number.maxInt]
  constructor
  · rintro ⟨⟨above, below⟩, same⟩
    cases same
    exact Int64.toInt_ofInt_of_le (by omega) (by omega)
  · rintro rfl
    exact ⟨⟨by omega, by omega⟩, by rw [Int64.ofInt_toInt]⟩

/-- What is an integer of 64 bits stays it. -/
@[simp]
lemma step?_toInt (n : Int64) : step? n.toInt = some n :=
  step?_eq_some.2 rfl

/-- A step fails only beyond the least or the greatest integer. -/
lemma step?_eq_none {n : Int} (missing : step? n = none) :
    n < Number.minInt ∨ Number.maxInt < n := by
  rw [step?, ite_eq_right_iff, Bool.and_eq_true, decide_eq_true_eq, decide_eq_true_eq] at missing
  rcases Int.lt_or_le n Number.minInt with below | above
  · exact .inl below
  · refine .inr (Int.not_le.1 fun inside => ?_)
    cases missing ⟨above, inside⟩

/-- There is a step to an integer that is between two of 64 bits. -/
lemma exists_step? {n : Int} (low high : Int64) (above : low.toInt ≤ n) (below : n ≤ high.toInt) :
    ∃ m, step? n = some m ∧ m.toInt = n := by
  have least := low.le_toInt
  have greatest := high.toInt_lt
  have same : (Int64.ofInt n).toInt = n := Int64.toInt_ofInt_of_le (by omega) (by omega)
  exact ⟨.ofInt n, step?_eq_some.2 same, same⟩

/-- A result is an integer where the step to it goes through. -/
lemma ofInt?_eq (n : Int) : Number.ofInt? n = (step? n).map .int := by
  rw [Number.ofInt?, step?]
  split <;> rfl

namespace Steps

variable {a b q r : Int64}

/-- Only zero stands for zero. -/
lemma toInt_ne_zero (nonzero : b ≠ 0) : b.toInt ≠ 0 :=
  fun zero => nonzero (Int64.toInt.inj (zero.trans Int64.toInt_zero.symm))

/-- Where a division goes through, it is not by zero and rounds toward zero. -/
lemma toInt_div? (divides : div? a b = some q) : b.toInt ≠ 0 ∧ q.toInt = a.toInt.tdiv b.toInt := by
  obtain ⟨nonzero, step⟩ := Option.ite_none_left_eq_some.1 divides
  exact ⟨toInt_ne_zero nonzero, step?_eq_some.1 step⟩

/-- Where there is a quotient, there is a remainder. -/
lemma exists_rem? (divides : div? a b = some q) :
    ∃ r, rem? a b = some r ∧ r.toInt = a.toInt.tmod b.toInt := by
  rw [rem?, divides, Option.bind_some]
  obtain ⟨positive, negative⟩ := tmod_between a.toInt b.toInt
  rcases Int.le_total 0 a.toInt with h | h
  · exact exists_step? 0 a (positive h).1 (positive h).2
  · exact exists_step? a 0 (negative h).1 (negative h).2

/-- The one quotient of 64 bits that has more is the smallest integer by minus one. -/
lemma eq_of_div?_eq_none (nonzero : b ≠ 0) (missing : div? a b = none) :
    a = .minValue ∧ b = -1 := by
  rw [div?, if_neg nonzero] at missing
  have outside := step?_eq_none missing
  rw [Number.minInt, Number.maxInt] at outside
  have low := a.le_toInt
  have high := a.toInt_lt
  have zero := toInt_ne_zero nonzero
  rcases Nat.lt_or_ge b.toInt.natAbs 2 with small | large
  · obtain one | minus : b.toInt = 1 ∨ b.toInt = -1 := by omega
    · rw [one, Int.tdiv_one] at outside
      omega
    · rw [minus, Int.tdiv_neg, Int.tdiv_one] at outside
      exact ⟨Int64.toInt.inj (by rw [Int64.toInt_minValue]; omega), Int64.toInt.inj minus⟩
  · have half := natAbs_tdiv_le_half (m := a.toInt) large
    omega

/-- A quotient that leaves a remainder is not the smallest integer. -/
lemma exists_sub?_one (divides : div? a b = some q) (remains : a.toInt.tmod b.toInt ≠ 0) :
    ∃ p, sub? q 1 = some p ∧ p.toInt = q.toInt - 1 := by
  obtain ⟨nonzero, same⟩ := toInt_div? divides
  have half := natAbs_tdiv_le_half (m := a.toInt) (two_le_of_tmod_ne_zero nonzero remains)
  have low := a.le_toInt
  have high := a.toInt_lt
  rw [← same] at half
  have one : (1 : Int64).toInt = 1 := rfl
  have least : Int64.minValue.toInt ≤ q.toInt - 1 := by
    rw [Int64.toInt_minValue]
    omega
  exact exists_step? .minValue q least (by omega)

/-- A sum of integers of different signs is between them. -/
lemma exists_add? (apart : ¬ (r.toInt < 0 ↔ b.toInt < 0)) :
    ∃ p, add? r b = some p ∧ p.toInt = r.toInt + b.toInt := by
  rcases Int.lt_or_le r.toInt 0 with negative | positive
  · have other : 0 ≤ b.toInt := by simpa [negative] using apart
    exact exists_step? r b (by omega) (by omega)
  · have other : b.toInt < 0 := by simpa [Int.not_lt.2 positive] using apart
    exact exists_step? b r (by omega) (by omega)

/-- Counting on from below a bound takes a step that has a result. -/
lemma exists_next? (less : a < b) : ∃ p, add? a 1 = some p ∧ p.toInt = a.toInt + 1 :=
  exists_step? a b (Int.le_add_of_nonneg_right Int.one_nonneg) (Int64.lt_iff_toInt_lt.1 less)

/-- A range that is no longer than what it may be is counted to its end. -/
lemma exists_range? (most : Nat) (fits : b.toInt - a.toInt ≤ most) :
    ∃ items, range? most a b = some items ∧
      items.map Int64.toInt =
        (List.range (b.toInt - a.toInt).toNat).map fun i : Nat => a.toInt + i := by
  induction most generalizing a with
  | zero =>
    have done : ¬ a < b := fun less => by
      have below := Int64.lt_iff_toInt_lt.1 less
      omega
    refine ⟨[], if_neg done, ?_⟩
    rw [Int.toNat_of_nonpos fits]
    rfl
  | succ most ih =>
    by_cases less : a < b
    · obtain ⟨p, next, more⟩ := exists_next? less
      obtain ⟨items, rest, same⟩ := ih (a := p) (by omega)
      have below := Int64.lt_iff_toInt_lt.1 less
      refine ⟨a :: items, ?_, ?_⟩
      · rw [range?, if_pos less, next, Option.bind_eq_bind, Option.bind_some, rest]
        rfl
      · have count : (b.toInt - a.toInt).toNat = (b.toInt - p.toInt).toNat + 1 := by omega
        have later : ∀ i ∈ List.range (b.toInt - p.toInt).toNat,
            p.toInt + (i : Int) = a.toInt + ((i + 1 : Nat) : Int) := by
          intro i _
          omega
        rw [count, List.range_succ_eq_map, List.map_cons, List.map_cons, same, List.map_map,
          List.map_congr_left later]
        simp
    · refine ⟨[], if_neg less, ?_⟩
      have done := Int.not_lt.1 (mt Int64.lt_iff_toInt_lt.2 less)
      rw [Int.toNat_of_nonpos (by omega)]
      rfl

end Steps

end Scriptlet
