import Mathlib.Algebra.Order.Field.Rat
import Mathlib.Algebra.Ring.Parity
import Mathlib.Tactic.FieldSimp
import Mathlib.Tactic.Linarith
import Mathlib.Tactic.Positivity
import Scriptlet.Proofs.Numeric.Rounding

/-!
# The nearest number of the format

Rounding gives the nearest number of units of at most 53 binary digits, a tie going to the even
significand (`roundUnits_closest`), and there is only one such number (`Closest.unique`). So a number
of the format is known by the exact number that it is nearest to (`NearestTo.unique`), however that
number was written or computed.
-/

namespace Scriptlet.Binary64

variable {num den units other : Nat} {exact : ℚ}

/-- A number of units with at most `precision` significant binary digits. -/
def Significant (units : Nat) : Prop :=
  lastDigit units ∣ units

/-- The significant binary digits. -/
def significand (units : Nat) : Nat :=
  units / lastDigit units

/-- Of the numbers with at most `precision` significant binary digits, the one that is nearest to an
exact number of units. If two are equally near, it is the one with the even significand. -/
structure Closest (units : Nat) (exact : ℚ) : Prop where
  significant : Significant units
  nearest : ∀ other, Significant other → |(units : ℚ) - exact| ≤ |(other : ℚ) - exact|
  tie : ∀ other, Significant other → other ≠ units →
    |(units : ℚ) - exact| = |(other : ℚ) - exact| → Even (significand units)

section Quotient

/-- A quotient by its whole part and the part behind the point. -/
lemma div_eq_whole_add (num : Nat) (pos : 0 < den) :
    (num : ℚ) / den = (num / den : Nat) + (num % den : Nat) / den := by
  have positive : (den : ℚ) ≠ 0 := by exact_mod_cast pos.ne'
  have split : (num : ℚ) = den * (num / den : Nat) + (num % den : Nat) := by
    exact_mod_cast (Nat.div_add_mod num den).symm
  rw [div_eq_iff positive, add_mul, div_mul_cancel₀ _ positive]
  linarith

/-- A ratio is at most one half in integers. -/
lemma div_le_half_iff (num : Nat) (pos : 0 < den) : (num : ℚ) / den ≤ 1 / 2 ↔ 2 * num ≤ den := by
  have positive : (0 : ℚ) < den := by exact_mod_cast pos
  have scaled : (num : ℚ) / den ≤ 1 / 2 ↔ ((2 * num : Nat) : ℚ) ≤ den := by
    rw [div_le_div_iff₀ positive two_pos, one_mul, mul_comm, Nat.cast_mul, Nat.cast_two]
  rw [scaled, Nat.cast_le]

/-- A ratio is at least one half in integers. -/
lemma half_le_div_iff (num : Nat) (pos : 0 < den) : 1 / 2 ≤ (num : ℚ) / den ↔ den ≤ 2 * num := by
  have positive : (0 : ℚ) < den := by exact_mod_cast pos
  have scaled : 1 / 2 ≤ (num : ℚ) / den ↔ (den : ℚ) ≤ ((2 * num : Nat) : ℚ) := by
    rw [div_le_div_iff₀ two_pos positive, one_mul, mul_comm, Nat.cast_mul, Nat.cast_two]
  rw [scaled, Nat.cast_le]

/-- The rounded quotient is at most one half away, and if it is as far as that it is even. -/
lemma roundQuotient_near (num : Nat) (pos : 0 < den) :
    |(roundQuotient num den : ℚ) - num / den| ≤ 1 / 2 ∧
      (|(roundQuotient num den : ℚ) - num / den| = 1 / 2 → Even (roundQuotient num den)) := by
  have positive : (0 : ℚ) < den := by exact_mod_cast pos
  have low : 0 ≤ ((num % den : Nat) : ℚ) / den := by positivity
  have up := @roundQuotient_eq_succ_iff num den
  have least := div_le_roundQuotient num den
  have most := roundQuotient_le num den
  rw [div_eq_whole_add num pos]
  rcases Nat.lt_or_eq_of_le most with stays | goes
  · -- rounded down: the part behind the point is one half at most
    have whole : roundQuotient num den = num / den := by omega
    have half : 2 * (num % den) ≤ den := by omega
    rw [whole, sub_add_cancel_left, abs_neg, abs_of_nonneg low]
    refine ⟨(div_le_half_iff _ pos).2 half, fun same => ?_⟩
    have tie := (half_le_div_iff _ pos).1 same.ge
    rw [Nat.even_iff]
    omega
  · -- rounded up: it is one half at least
    have half : den ≤ 2 * (num % den) := by omega
    have part := (half_le_div_iff _ pos).2 half
    have high : ((num % den : Nat) : ℚ) / den < 1 := by
      rw [div_lt_one positive]
      exact_mod_cast Nat.mod_lt num pos
    have away : (((num / den + 1 : Nat) : ℚ) - ((num / den : Nat) + (num % den : Nat) / den)) =
        1 - (num % den : Nat) / den := by
      push_cast
      ring
    rw [goes, away, abs_of_nonneg (by linarith)]
    refine ⟨by linarith, fun same => ?_⟩
    have tie := (div_le_half_iff (num % den) pos).1 (by linarith)
    rw [Nat.even_iff]
    omega

/-- Another whole number is at least one half away from what a whole number is near to. -/
lemma half_le_of_ne {m n : Nat} (near : |(m : ℚ) - exact| ≤ 1 / 2) (differ : n ≠ m) :
    1 / 2 ≤ |(n : ℚ) - exact| := by
  have apart : (1 : ℚ) ≤ |(n : ℚ) - m| := by
    have : (1 : ℤ) ≤ |(n : ℤ) - m| := Int.one_le_abs (by omega)
    exact_mod_cast this
  have triangle := abs_sub_le (n : ℚ) exact m
  rw [abs_sub_comm exact] at triangle
  linarith

end Quotient

section Grid

/-- The last digit of a number between two neighbouring powers of two, and of these powers, is one
that both have. -/
lemma significant_of_between {digits : Nat} (low : 2 ^ digits ≤ units) (high : units ≤ 2 ^ (digits + 1))
    (whole : 2 ^ (digits + 1 - precision) ∣ units) : Significant units := by
  have nonzero : units ≠ 0 := by
    have := Nat.two_pow_pos digits
    omega
  rcases Nat.lt_or_eq_of_le high with below | top
  · rw [Significant, lastDigit, (Nat.log2_eq_iff nonzero).2 ⟨low, below⟩]
    exact whole
  · rw [Significant, top]
    exact lastDigit_dvd_pow (Nat.le_of_eq Nat.log2_two_pow)

/-- The last kept digit of a number divides that of a larger one. -/
lemma lastDigit_dvd_of_le {m n : Nat} (le : m ≤ n) : lastDigit m ∣ lastDigit n :=
  Nat.pow_dvd_pow 2 (Nat.sub_le_sub_right (Nat.succ_le_succ (log2_mono le)) _)

/-- Of the small numbers every digit is kept. -/
lemma lastDigit_of_le_two {n : Nat} (small : n ≤ 2) : lastDigit n = 1 := by
  have few : n.log2 + 1 ≤ precision :=
    Nat.le_trans (Nat.succ_le_succ (log2_mono small)) (by decide)
  rw [lastDigit, Nat.sub_eq_zero_of_le few, Nat.pow_eq, Nat.pow_zero]

/-- The number behind a number of the grid is on the grid of that number. -/
lemma Significant.next (h : Significant units) : Significant (units + lastDigit units) := by
  rcases Nat.eq_zero_or_pos units with rfl | pos
  · rw [lastDigit_of_le_two (Nat.zero_le 2), Significant, lastDigit_of_le_two (by decide)]
  · have low := Nat.log2_self_le pos.ne'
    have high : units < 2 ^ (units.log2 + 1) := Nat.lt_log2_self
    have step : lastDigit units ∣ 2 ^ (units.log2 + 1) := lastDigit_dvd_pow (Nat.le_succ _)
    have room : units + lastDigit units ≤ 2 ^ (units.log2 + 1) := by
      have gap := Nat.le_of_dvd (Nat.sub_pos_of_lt high) (Nat.dvd_sub step h)
      omega
    exact significant_of_between (Nat.le_trans low (Nat.le_add_right _ _)) room
      (Nat.dvd_add h (Nat.dvd_refl _))

/-- A number of the grid is on the grid of every number that is not above it. -/
lemma Significant.dvd_of_le (h : Significant other) (le : units ≤ other) :
    lastDigit units ∣ other :=
  Nat.dvd_trans (lastDigit_dvd_of_le le) h

/-- What is rounded is a multiple of the last digit that is kept. -/
lemma roundUnits_dvd (num den : Nat) : lastDigit (num / den) ∣ roundUnits num den :=
  Nat.dvd_mul_left _ _

/-- Where the whole part is zero, every digit of what is rounded is kept. -/
lemma lastDigit_roundUnits_of_zero (pos : 0 < den) (zero : num / den = 0) :
    lastDigit (roundUnits num den) = 1 := by
  have high : roundUnits num den ≤ 2 ^ ((num / den).log2 + 1) := roundUnits_le pos
  rw [zero] at high
  exact lastDigit_of_le_two high

/-- A rounded number has at most as many significant binary digits as are kept. -/
lemma significant_roundUnits (num : Nat) (pos : 0 < den) : Significant (roundUnits num den) := by
  rcases Nat.eq_zero_or_pos (num / den) with zero | nonzero
  · rw [Significant, lastDigit_roundUnits_of_zero pos zero]
    exact Nat.one_dvd _
  · exact significant_of_between (le_roundUnits nonzero.ne') (roundUnits_le pos)
      (roundUnits_dvd num den)

/-- Of the multiples of the last digit that is kept, a rounded number is the nearest, a tie going to
the even multiple. -/
lemma roundUnits_near (num : Nat) (pos : 0 < den) (times : Nat) :
    let digit := lastDigit (num / den)
    |(roundUnits num den : ℚ) - num / den| ≤ |((times * digit : Nat) : ℚ) - num / den| ∧
      (roundUnits num den ≠ times * digit →
        |(roundUnits num den : ℚ) - num / den| = |((times * digit : Nat) : ℚ) - num / den| →
        Even (roundUnits num den / digit)) := by
  intro digit
  have digit_pos : 0 < digit := lastDigit_pos _
  have positive : (0 : ℚ) < digit := by exact_mod_cast digit_pos
  let rounded := roundQuotient num (den * digit)
  obtain ⟨near, even⟩ := roundQuotient_near num (Nat.mul_pos pos digit_pos)
  have away (times : Nat) : |((times * digit : Nat) : ℚ) - num / den| =
      |(times : ℚ) - num / (den * digit : Nat)| * digit := by
    have scaled : ((times * digit : Nat) : ℚ) - num / den =
        (times - num / (den * digit : Nat)) * digit := by
      push_cast
      field_simp
    rw [scaled, abs_mul, abs_of_pos positive]
  rw [show roundUnits num den = rounded * digit from rfl, away, away]
  by_cases same : times = rounded
  · rw [same]
    exact ⟨le_refl _, fun differ => absurd rfl differ⟩
  · have half := half_le_of_ne near same
    refine ⟨mul_le_mul_of_nonneg_right (near.trans half) positive.le, fun _ tie => ?_⟩
    rw [Nat.mul_div_cancel _ digit_pos]
    apply even
    have := mul_right_cancel₀ positive.ne' tie
    linarith

/-- A power of two has an even significand, so it wins every tie. -/
lemma even_significand_two_pow (digits : Nat) : Even (significand (2 ^ (digits + 1))) := by
  have smaller : digits + 1 + 1 - precision ≤ digits + 1 := by
    rw [precision]
    omega
  rw [significand, lastDigit, Nat.log2_two_pow, Nat.pow_eq, Nat.pow_div smaller Nat.two_pos,
    Nat.even_pow]
  refine ⟨even_two, ?_⟩
  rw [precision]
  omega

/-- If a rounded number is an even multiple of the last digit that is kept, its significand is
even. -/
lemma even_significand_roundUnits (num : Nat) (pos : 0 < den)
    (even : Even (roundUnits num den / lastDigit (num / den))) :
    Even (significand (roundUnits num den)) := by
  rcases Nat.eq_zero_or_pos (num / den) with zero | nonzero
  · rw [zero, lastDigit_of_le_two (Nat.zero_le 2)] at even
    rw [significand, lastDigit_roundUnits_of_zero pos zero]
    exact even
  · have low := le_roundUnits nonzero.ne'
    rcases Nat.lt_or_eq_of_le (roundUnits_le pos) with below | top
    · have positive : roundUnits num den ≠ 0 := by
        have := Nat.two_pow_pos (num / den).log2
        omega
      rw [significand, lastDigit, (Nat.log2_eq_iff positive).2 ⟨low, below⟩]
      exact even
    · rw [top]
      exact even_significand_two_pow _

/-- What has fewer digits than the whole part is farther away than the power of two below that. -/
lemma roundUnits_lt_of_few (num : Nat) (pos : 0 < den) (nonzero : num / den ≠ 0)
    (few : other < 2 ^ (num / den).log2) :
    |(roundUnits num den : ℚ) - num / den| < |(other : ℚ) - num / den| := by
  have positive : (0 : ℚ) < den := by exact_mod_cast pos
  obtain ⟨times, split⟩ := lastDigit_dvd_pow (Nat.le_refl (num / den).log2)
  obtain ⟨near, -⟩ := roundUnits_near num pos times
  rw [Nat.mul_comm, ← split] at near
  have reached : ((2 ^ (num / den).log2 : Nat) : ℚ) ≤ num / den := by
    rw [le_div_iff₀ positive]
    exact_mod_cast (Nat.le_div_iff_mul_le pos).1 (Nat.log2_self_le nonzero)
  have less : (other : ℚ) < ((2 ^ (num / den).log2 : Nat) : ℚ) := by exact_mod_cast few
  calc |(roundUnits num den : ℚ) - num / den|
      ≤ |((2 ^ (num / den).log2 : Nat) : ℚ) - num / den| := near
    _ = num / den - ((2 ^ (num / den).log2 : Nat) : ℚ) := by
      rw [abs_of_nonpos (by linarith), neg_sub]
    _ < num / den - other := by linarith
    _ ≤ |(other : ℚ) - num / den| := by
      rw [← neg_sub]
      exact neg_le_abs _

/-- A number of the grid is a multiple of the last digit that is kept, or it has fewer digits than the
whole part. -/
lemma Significant.dvd_or_few (h : Significant other) (num den : Nat) :
    lastDigit (num / den) ∣ other ∨ num / den ≠ 0 ∧ other < 2 ^ (num / den).log2 := by
  rcases Nat.lt_or_ge other (2 ^ (num / den).log2) with few | many
  · by_cases zero : num / den = 0
    · left
      rw [zero, lastDigit_of_le_two (Nat.zero_le 2)]
      exact Nat.one_dvd other
    · exact .inr ⟨zero, few⟩
  · left
    have digit : lastDigit (num / den) = lastDigit (2 ^ (num / den).log2) := by
      rw [lastDigit, lastDigit, Nat.log2_two_pow]
    rw [digit]
    exact h.dvd_of_le many

/-- Rounding gives the nearest number. -/
theorem roundUnits_closest (num : Nat) (pos : 0 < den) :
    Closest (roundUnits num den) (num / den) := by
  refine ⟨significant_roundUnits num pos, fun other h => ?_, fun other h differ same => ?_⟩
  · rcases h.dvd_or_few num den with ⟨times, split⟩ | ⟨nonzero, few⟩
    · rw [split, Nat.mul_comm]
      exact (roundUnits_near num pos times).1
    · exact (roundUnits_lt_of_few num pos nonzero few).le
  · rcases h.dvd_or_few num den with ⟨times, split⟩ | ⟨nonzero, few⟩
    · rw [split, Nat.mul_comm] at same differ
      exact even_significand_roundUnits num pos
        ((roundUnits_near num pos times).2 differ.symm same)
    · exact absurd same (roundUnits_lt_of_few num pos nonzero few).ne

end Grid

namespace Closest

/-- A number that needs no rounding is closest to itself. -/
lemma of_significant (significant : Significant units) : Closest units units := by
  refine ⟨significant, fun other _ => ?_, fun other _ differ same => ?_⟩
  · rw [sub_self, abs_zero]
    exact abs_nonneg _
  · rw [sub_self, abs_zero, eq_comm, abs_eq_zero, sub_eq_zero] at same
    exact absurd (by exact_mod_cast same) differ

/-- Two numbers that are equally near are neighbours: nothing of the format is between them. -/
lemma adjacent (h : Closest units exact) (h' : Closest other exact) (lt : units < other) :
    units + lastDigit units = other := by
  have tie : |(units : ℚ) - exact| = |(other : ℚ) - exact| :=
    le_antisymm (h.nearest other h'.significant) (h'.nearest units h.significant)
  have less : (units : ℚ) < other := by exact_mod_cast lt
  have middle : exact = (units + other) / 2 := by
    rcases abs_eq_abs.1 tie with same | opposite <;> linarith
  have step : units + lastDigit units ≤ other := by
    have gap := Nat.le_of_dvd (Nat.sub_pos_of_lt lt)
      (Nat.dvd_sub (h'.significant.dvd_of_le lt.le) h.significant)
    omega
  by_contra apart
  have inside : ((units + lastDigit units : Nat) : ℚ) < other := by
    exact_mod_cast Nat.lt_of_le_of_ne step apart
  have behind : (units : ℚ) < ((units + lastDigit units : Nat) : ℚ) := by
    exact_mod_cast Nat.lt_add_of_pos_right (lastDigit_pos units)
  have nearest := h.nearest _ h.significant.next
  rw [middle, abs_of_nonpos (by linarith), le_abs] at nearest
  rcases nearest with above | below <;> linarith

/-- Of two neighbours that are equally near one has an odd significand. -/
lemma not_lt (h : Closest units exact) (h' : Closest other exact) : ¬ units < other := by
  intro lt
  have tie : |(units : ℚ) - exact| = |(other : ℚ) - exact| :=
    le_antisymm (h.nearest other h'.significant) (h'.nearest units h.significant)
  have even := h.tie other h'.significant lt.ne' tie
  have even' := h'.tie units h.significant lt.ne tie.symm
  have digit := lastDigit_pos units
  -- the larger one is the next multiple of the last digit of the smaller one
  have next : other / lastDigit units = significand units + 1 := by
    rw [← h.adjacent h' lt, significand, Nat.add_div_right _ digit]
  obtain ⟨factor, scale⟩ := lastDigit_dvd_of_le lt.le
  have times_even : Even (other / lastDigit units) := by
    have whole : other = lastDigit units * (factor * significand other) := by
      rw [← Nat.mul_assoc, ← scale, significand, Nat.mul_div_cancel' h'.significant]
    rw [whole, Nat.mul_div_cancel_left _ digit]
    exact even'.mul_left factor
  rw [next, Nat.even_add_one] at times_even
  exact times_even even

/-- There is only one nearest number. -/
theorem unique (h : Closest units exact) (h' : Closest other exact) : units = other :=
  Nat.le_antisymm (Nat.le_of_not_lt (h'.not_lt h)) (Nat.le_of_not_lt (h.not_lt h'))

/-- Nothing is rounded below a number of the format that is not above it. -/
lemma le_of_ge (h : Closest units exact) (significant : Significant other)
    (le : (other : ℚ) ≤ exact) : other ≤ units := by
  by_contra below
  have less : (units : ℚ) < other := by exact_mod_cast Nat.lt_of_not_le below
  have near := h.nearest other significant
  rw [abs_of_nonpos (by linarith), abs_of_nonpos (by linarith)] at near
  linarith

/-- What is below half a unit is rounded to zero. -/
lemma zero (positive : 0 ≤ exact) (small : exact < 1 / 2) : Closest 0 exact := by
  have near (other : Nat) (differ : other ≠ 0) : |((0 : Nat) : ℚ) - exact| < |(other : ℚ) - exact| := by
    have one : (1 : ℚ) ≤ other := by exact_mod_cast Nat.one_le_iff_ne_zero.2 differ
    rw [Nat.cast_zero, zero_sub, abs_neg, abs_of_nonneg positive, abs_of_nonneg (by linarith)]
    linarith
  refine ⟨Nat.dvd_zero _, fun other _ => ?_, fun other _ differ same => ?_⟩
  · by_cases same : other = 0
    · rw [same]
    · exact (near other same).le
  · exact absurd same (near other differ).ne

end Closest

/-- Not every number is infinite. -/
lemma overflowUnits_pos : 0 < overflowUnits := by
  obtain ⟨_, top, -, same, -⟩ := exists_powers
  rw [same]
  exact Nat.pow_pos Nat.two_pos

/-- The bound of the infinite numbers would be a number of the format. -/
lemma significant_overflowUnits : Significant overflowUnits := by
  obtain ⟨_, top, -, same, -⟩ := exists_powers
  rw [Significant, same]
  exact lastDigit_dvd_pow (Nat.le_of_eq Nat.log2_two_pow)

/-- One is finite. -/
lemma unitsPerOne_lt_overflowUnits : unitsPerOne < overflowUnits := by
  obtain ⟨_, top, one, same, far, -⟩ := exists_powers
  rw [one, same]
  exact Nat.pow_lt_pow_right Nat.one_lt_two (by omega)

/-- One is a number of the format. -/
lemma significant_unitsPerOne : Significant unitsPerOne := by
  obtain ⟨point, _, one, -⟩ := exists_powers
  rw [Significant, one]
  exact lastDigit_dvd_pow (Nat.le_of_eq Nat.log2_two_pow)

/-- Every number has a nearest one. -/
lemma exists_closest (exact : ℚ) (positive : 0 ≤ exact) : ∃ units, Closest units exact := by
  have closest := roundUnits_closest exact.num.natAbs exact.den_pos
  have magnitude : ((exact.num.natAbs : ℤ) : ℚ) = exact.num := by
    rw [Int.natAbs_of_nonneg (Rat.num_nonneg.2 positive)]
  rw [← Int.cast_natCast, magnitude, Rat.num_div_den] at closest
  exact ⟨_, closest⟩

/-- A number of units with a sign as a number of the format, which is infinite if there are too
many. -/
def ofUnits (negative : Bool) (units : Nat) : Binary64 :=
  if units < overflowUnits then finite negative units else infinite negative

/-- The number is the one that is nearest to a number of this sign and this magnitude: its units are,
or it is infinite because they are too many. -/
def NearestTo (x : Binary64) (negative : Bool) (magnitude : ℚ) : Prop :=
  ∃ units, Closest units (magnitude * unitsPerOne) ∧ x = ofUnits negative units

namespace NearestTo

variable {x y : Binary64} {negative : Bool} {magnitude : ℚ}

/-- There is only one number of the format that is nearest. -/
theorem unique (h : x.NearestTo negative magnitude) (h' : y.NearestTo negative magnitude) :
    x = y := by
  obtain ⟨units, closest, same⟩ := h
  obtain ⟨units', closest', same'⟩ := h'
  rw [same, same', closest.unique closest']

/-- A number of the format is nearest to itself. -/
lemma of_significant (significant : Significant units) (small : units < overflowUnits)
    (same : magnitude * unitsPerOne = units) :
    (finite negative units).NearestTo negative magnitude := by
  refine ⟨units, ?_, (if_pos small).symm⟩
  rw [same]
  exact .of_significant significant

/-- What is below half a unit is rounded to zero. -/
lemma zero (positive : 0 ≤ magnitude) (small : magnitude * unitsPerOne < 1 / 2) :
    (finite negative 0).NearestTo negative magnitude := by
  refine ⟨0, Closest.zero (mul_nonneg positive (Nat.cast_nonneg _)) small, ?_⟩
  exact (if_pos overflowUnits_pos).symm

/-- What overflows is rounded to the infinity. -/
lemma infinite (large : overflowUnits ≤ magnitude * unitsPerOne) :
    (Binary64.infinite negative).NearestTo negative magnitude := by
  obtain ⟨units, closest⟩ := exists_closest (magnitude * unitsPerOne)
    ((Nat.cast_nonneg _).trans large)
  have many : overflowUnits ≤ units := closest.le_of_ge significant_overflowUnits large
  exact ⟨units, closest, (if_neg (Nat.not_lt.2 many)).symm⟩

end NearestTo

end Scriptlet.Binary64
