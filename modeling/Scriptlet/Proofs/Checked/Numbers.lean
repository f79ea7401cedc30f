import Scriptlet.Proofs.Checked.Integers

/-!
# Numbers in checked steps

The operations on numbers that are made of several steps on integers. They come to what the
operations come to that calculate with integers of any size and look at the size of the result.
-/

namespace Scriptlet

namespace Number

open Steps

/-- The number with the other sign. No step is taken without a look at whether it has a result. -/
def neg? : Number → Option Number
  | int n => some (((Steps.neg? n).map int).getD (.float (Binary64.ofInt n.toInt).neg))
  | float x => some (.float x.neg)

/-- The quotient rounded down, in steps. -/
def floorDiv? (a b : Number) : Option (Except DivisionFault Number) :=
  if b = .int 0 then some (.error .divisionByZero)
  else
    match a, b with
    | int m, int n =>
      match div? m n with
      | none => some (.ok (.float ((Binary64.ofInt m.toInt).div (.ofInt n.toInt)).floor))
      | some q => do
        let r ← rem? m n
        if r ≠ 0 && (m < 0) != (n < 0) then
          let q ← sub? q 1
          some (.ok (.int q))
        else some (.ok (.int q))
    | a, b => some ((a.div b).map fun q => .float q.toBinary64.floor)

/-- The remainder of the quotient rounded down, in steps. -/
def modulo? (a b : Number) : Option (Except DivisionFault Number) :=
  if b = .int 0 then some (.error .moduloByZero)
  else
    match a, b with
    | int m, int n => do
      let r := (rem? m n).getD 0
      if r ≠ 0 && (r < 0) != (n < 0) then
        let r ← add? r n
        some (.ok (.int r))
      else some (.ok (.int r))
    | a, b =>
      if b.toBinary64.isZero then some (.error .moduloByZero)
      else some (.ok (.float (floorRem a.toBinary64 b.toBinary64)))

end Number

/-- A positive integer does not round to zero. -/
lemma Binary64.roundUnits_pos {num : Nat} (positive : 0 < num) : 0 < roundUnits num 1 := by
  have fits : Nat.pow 2 ((num / 1).log2 + 1 - precision) ≤ num := by
    rw [Nat.div_one]
    calc Nat.pow 2 (num.log2 + 1 - precision) ≤ 2 ^ num.log2 :=
        Nat.pow_le_pow_right Nat.two_pos (by rw [precision]; omega)
      _ ≤ num := Nat.log2_self_le (Nat.ne_of_gt positive)
  have scale : 0 < Nat.pow 2 ((num / 1).log2 + 1 - precision) := Nat.pow_pos Nat.two_pos
  have quotient : 0 < num / (1 * Nat.pow 2 ((num / 1).log2 + 1 - precision)) := by
    rw [Nat.one_mul]
    exact Nat.div_pos fits scale
  refine Nat.mul_pos ?_ scale
  rw [roundQuotient]
  split
  · exact Nat.succ_pos _
  · exact quotient

/-- An integer other than zero is not rounded to zero. -/
lemma Binary64.isZero_ofInt (n : Int) : (ofInt n).isZero = decide (n = 0) := by
  by_cases zero : n = 0
  · subst zero
    decide +kernel
  · have units : 0 < roundUnits (n.natAbs * unitsPerOne) 1 :=
      roundUnits_pos (Nat.mul_pos (Int.natAbs_pos.2 zero) (by decide +kernel))
    rw [ofInt, ofRatio, decide_eq_false zero]
    split
    · simpa [isZero] using Nat.ne_of_gt units
    · rfl

namespace Number

variable {m n : Int64}

/-- To take the negative never fails, and is what it is without the check. -/
lemma neg?_eq (a : Number) : a.neg? = some a.neg := by
  cases a with
  | int n => rw [neg?, neg, Steps.neg?, ofInt?_eq]
  | float x => rfl

/-- The integer zero is zero as a float. -/
lemma isZero_zero : (int 0).toBinary64.isZero = true :=
  Binary64.isZero_ofInt 0

/-- No other integer is zero as a float. -/
lemma isZero_toBinary64 (nonzero : n ≠ 0) : (int n).toBinary64.isZero = false := by
  rw [toBinary64, Binary64.isZero_ofInt, decide_eq_false (Steps.toInt_ne_zero nonzero)]

/-- The signs of a remainder that is not zero and of the divisor are told apart as those of numbers.
-/
lemma apart_iff {r : Int64} :
    (r ≠ 0 && (m < 0) != (n < 0)) = true ↔ r.toInt ≠ 0 ∧ ¬ (m.toInt < 0 ↔ n.toInt < 0) := by
  simp [Int64.lt_iff_toInt_lt, ← Int64.toInt_inj]

/-- Whole numbers are divided as integers, unless the quotient has more than 64 bits. -/
lemma floorDiv_int (nonzero : n ≠ 0) :
    (int m).floorDiv (int n) =
      .ok (((step? (m.toInt.fdiv n.toInt)).map int).getD
        (.float ((Binary64.ofInt m.toInt).div (.ofInt n.toInt)).floor)) := by
  rw [floorDiv, isZero_toBinary64 nonzero, if_neg Bool.false_ne_true, combine, ofInt?_eq]
  cases step? (m.toInt.fdiv n.toInt) <;> rfl

/-- A rounded division of integers by one that is not zero fails nowhere. -/
lemma floorDiv?_int (nonzero : n ≠ 0) :
    floorDiv? (int m) (int n) = some ((int m).floorDiv (int n)) := by
  rw [floorDiv?, if_neg (by simpa using nonzero), floorDiv_int nonzero]
  cases divides : Steps.div? m n with
  | none =>
    obtain ⟨rfl, rfl⟩ := Steps.eq_of_div?_eq_none nonzero divides
    rfl
  | some q =>
    obtain ⟨zero, quotient⟩ := Steps.toInt_div? divides
    obtain ⟨r, rem, remainder⟩ := Steps.exists_rem? divides
    rw [fdiv_eq_step zero, ← remainder, ← quotient]
    dsimp only
    rw [rem, Option.bind_eq_bind, Option.bind_some]
    by_cases apart : r.toInt ≠ 0 ∧ ¬ (m.toInt < 0 ↔ n.toInt < 0)
    · obtain ⟨p, sub, less⟩ := Steps.exists_sub?_one divides (remainder ▸ apart.1)
      rw [if_pos apart, if_pos (apart_iff.2 apart), sub, ← less, step?_toInt]
      rfl
    · rw [if_neg apart, if_neg (mt apart_iff.1 apart), step?_toInt]
      rfl

/-- A rounded division never fails, and is what it is without the check. -/
lemma floorDiv?_eq (a b : Number) : floorDiv? a b = some (a.floorDiv b) := by
  by_cases zero : b = .int 0
  · subst zero
    unfold floorDiv?
    rw [if_pos rfl, floorDiv, if_pos isZero_zero]
  cases a <;> cases b
  case neg.int.int m n => exact floorDiv?_int (by simpa using zero)
  all_goals
    unfold floorDiv?
    rw [if_neg zero]
    dsimp only
    rw [Number.div, Number.floorDiv]
    split <;> rfl

/-- Whole numbers have the remainder that integers have. -/
lemma modulo_int (nonzero : n ≠ 0) :
    (int m).modulo (int n) =
      .ok (((step? (m.toInt.fmod n.toInt)).map int).getD
        (.float (floorRem (.ofInt m.toInt) (.ofInt n.toInt)))) := by
  rw [modulo, isZero_toBinary64 nonzero, if_neg Bool.false_ne_true, combine, ofInt?_eq]
  cases step? (m.toInt.fmod n.toInt) <;> rfl

/-- A remainder of integers by one that is not zero fails nowhere. -/
lemma modulo?_int (nonzero : n ≠ 0) :
    modulo? (int m) (int n) = some ((int m).modulo (int n)) := by
  rw [modulo?, if_neg (by simpa using nonzero), modulo_int nonzero]
  cases divides : Steps.div? m n with
  | none =>
    obtain ⟨rfl, rfl⟩ := Steps.eq_of_div?_eq_none nonzero divides
    rfl
  | some q =>
    obtain ⟨zero, -⟩ := Steps.toInt_div? divides
    obtain ⟨r, rem, remainder⟩ := Steps.exists_rem? divides
    rw [fmod_eq_step zero, ← remainder]
    dsimp only
    rw [rem, Option.getD_some]
    by_cases apart : r.toInt ≠ 0 ∧ ¬ (r.toInt < 0 ↔ n.toInt < 0)
    · obtain ⟨p, add, more⟩ := Steps.exists_add? apart.2
      rw [if_pos apart, if_pos (apart_iff.2 apart), add, ← more, step?_toInt]
      rfl
    · rw [if_neg apart, if_neg (mt apart_iff.1 apart), step?_toInt]
      rfl

/-- A remainder never fails, and is what it is without the check. -/
lemma modulo?_eq (a b : Number) : modulo? a b = some (a.modulo b) := by
  by_cases zero : b = .int 0
  · subst zero
    unfold modulo?
    rw [if_pos rfl, modulo, if_pos isZero_zero]
  cases a <;> cases b
  case neg.int.int m n => exact modulo?_int (by simpa using zero)
  all_goals
    unfold modulo?
    rw [if_neg zero]
    dsimp only
    rw [Number.modulo]
    split <;> rfl

end Number

end Scriptlet
