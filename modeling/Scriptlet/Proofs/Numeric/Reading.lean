import Scriptlet.Proofs.Checked.Integers
import Scriptlet.Proofs.Numeric.Comparison
import Scriptlet.Proofs.Numeric.Decimals
import Scriptlet.Proofs.Numeric.Numerals

/-!
# Reading texts as numbers

A text is an integer if it is a sign and digits for an integer of 64 bits, the binary64 number nearest
to it if it is another numeral, and no number otherwise. An exponent is read in full as long as it has
less than six digits or so: the digits that come once it has reached `Decimal.exponentReach` are passed
over, which only a text of as many characters can show (`Numeral.nearest_exact`).
-/

namespace Scriptlet

open Numeral

namespace Decimal

variable {cs : List Char}

/-- The digits of an exponent are taken one after another, the last one last. -/
lemma ofExponentDigits_concat (cs : List Char) (c : Char) :
    ofExponentDigits (cs ++ [c]) = addExponentDigit (ofExponentDigits cs) c :=
  List.foldl_append ..

/-- So are the digits of a number. -/
lemma natural_concat (cs : List Char) (c : Char) :
    natural (cs ++ [c]) = addDigit (natural cs) c := by
  rw [natural, Nat.ofDigitChars_append]
  rfl

/-- An exponent is read in full unless it has reached the bound before its last digit. -/
lemma ofExponentDigits_eq (small : natural cs < 10 * exponentReach) :
    ofExponentDigits cs = natural cs := by
  -- from the right, as a digit is passed over for the ones in front of it
  induction cs using List.reverseRecOn with
  | nil => rfl
  | append_singleton cs c ih =>
    rw [natural_concat] at small
    have less : natural cs < exponentReach := by
      rw [addDigit] at small
      omega
    rw [ofExponentDigits_concat, natural_concat, ih (by omega), addExponentDigit, if_pos less]

/-- An exponent that is large is read as a large one. -/
lemma le_ofExponentDigits (large : exponentReach ≤ natural cs) :
    exponentReach ≤ ofExponentDigits cs := by
  induction cs using List.reverseRecOn with
  | nil => exact absurd large (by decide)
  | append_singleton cs c ih =>
    rw [ofExponentDigits_concat, addExponentDigit]
    split
    · rename_i less
      have small : natural cs < exponentReach := by
        by_contra reached
        exact Nat.not_le_of_lt less (ih (Nat.le_of_not_lt reached))
      rwa [ofExponentDigits_eq (by omega), ← natural_concat]
    · rename_i reached
      exact Nat.le_of_not_lt reached

/-- A digit stands for less than ten. -/
lemma digitValue_lt {c : Char} (digit : c.isDigit = true) : digitValue c < 10 := by
  rw [Char.isDigit_iff_toNat] at digit
  have zero : '0'.toNat = 48 := rfl
  have nine : '9'.toNat = 57 := rfl
  rw [digitValue]
  omega

/-- So many digits stand for a number below that power of ten. -/
lemma natural_lt (all : AllDigits cs) : natural cs < 10 ^ cs.length := by
  induction cs using List.reverseRecOn with
  | nil => exact Nat.one_pos
  | append_singleton cs c ih =>
    have before := ih fun c mem => all c (List.mem_append_left _ mem)
    have last := digitValue_lt (all c (List.mem_append_right _ (List.mem_singleton_self c)))
    rw [natural_concat, addDigit, List.length_append, List.length_singleton, Nat.pow_succ]
    omega

end Decimal

namespace Numeral

variable {cs : List Char} {parts : Parts}

/-- Reading depends on the exponent only by what number its digits are taken for. -/
lemma Parts.decimal_congr {size size' : List Char → Nat}
    (same : powerOfTen size parts.power = powerOfTen size' parts.power) :
    parts.decimal size = parts.decimal size' := by
  rw [Parts.decimal, Parts.decimal, same]

/-- In a text that is short, an exponent that is large leaves no doubt what number is nearest. -/
lemma nearest_of_large (h : Spells cs parts) {size : List Char → Nat} {negative : Bool}
    {digits : List Char} (power : parts.power = some (negative, digits))
    (large : Decimal.exponentReach ≤ size digits)
    (short : cs.length + Decimal.hugePower ≤ Decimal.exponentReach) :
    (if natural parts.digits = 0 ∨ negative = true then Binary64.finite parts.negative 0
      else .infinite parts.negative).NearestTo parts.negative (parts.decimal size).magnitude := by
  obtain ⟨all, -, fits⟩ := h.digits
  have behind : (parts.places.getD []).length ≤ cs.length := by
    refine Nat.le_trans ?_ fits
    rw [Parts.digits, List.length_append]
    exact Nat.le_add_left _ _
  have exponent : (parts.decimal size).exponent =
      (if negative then -(size digits : Int) else size digits) - (parts.places.getD []).length := by
    rw [Parts.decimal, power]
    rfl
  split
  · -- next to nothing: no digit is other than zero, or the exponent outweighs all of them
    rename_i none_or_negative
    refine Decimal.nearest_zero (Decimal.magnitude_nonneg _) ?_
    rcases none_or_negative with none | rfl
    · rw [Decimal.magnitude_eq_zero none]
      exact zpow_pos (by norm_num) _
    · have few : (parts.decimal size).digits < 10 ^ cs.length :=
        Nat.lt_of_lt_of_le (Decimal.natural_lt all) (Nat.pow_le_pow_right (by decide) fits)
      apply Decimal.magnitude_lt few
      rw [exponent, if_pos rfl]
      omega
  · -- a digit is other than zero, and no place behind the point makes up for the exponent
    rename_i some_and_positive
    obtain ⟨some, positive⟩ := not_or.1 some_and_positive
    refine Decimal.nearest_infinite (Decimal.le_magnitude some ?_)
    rw [exponent, if_neg positive]
    omega

/-- The size of the exponent is what its digits stand for. -/
lemma Parts.natAbs_exponent {negative : Bool} {digits : List Char}
    (power : parts.power = some (negative, digits)) : parts.exponent.natAbs = natural digits := by
  rw [Parts.exponent, power, powerOfTen]
  cases negative with
  | false => exact Int.natAbs_natCast _
  | true => exact (Int.natAbs_neg _).trans (Int.natAbs_natCast _)

/-- A numeral is read as what it stands for unless its exponent has reached the bound before its last
digit. -/
lemma Parts.read_eq_exact (small : parts.exponent.natAbs < 10 * Decimal.exponentReach) :
    parts.read = parts.exact := by
  apply Parts.decimal_congr
  cases power : parts.power with
  | none => rfl
  | some exponent =>
    obtain ⟨negative, digits⟩ := exponent
    rw [natAbs_exponent power] at small
    rw [powerOfTen, powerOfTen, Decimal.ofExponentDigits_eq small]

/-- An exponent that is not zero is written. -/
lemma Parts.exists_power (nonzero : parts.exponent.natAbs ≠ 0) :
    ∃ negative digits, parts.power = some (negative, digits) := by
  cases power : parts.power with
  | none =>
    rw [Parts.exponent, power] at nonzero
    exact absurd rfl nonzero
  | some exponent => exact ⟨exponent.1, exponent.2, rfl⟩

/-- A numeral reads as the number nearest to what it stands for, unless its exponent has reached the
bound before its last digit and there are as many characters as it takes to make up for that. -/
lemma nearest_exact (h : Spells cs parts)
    (plain : parts.exponent.natAbs < 10 * Decimal.exponentReach ∨
      cs.length + Decimal.hugePower ≤ Decimal.exponentReach) :
    parts.read.toBinary64.NearestTo parts.negative parts.exact.magnitude := by
  have nearest : parts.read.toBinary64.NearestTo parts.negative parts.read.magnitude :=
    parts.read.toBinary64_nearest
  by_cases small : parts.exponent.natAbs < 10 * Decimal.exponentReach
  · rwa [← Parts.read_eq_exact small]
  · -- the exponent that is read and the one that is written are both out of reach
    have short := plain.resolve_left small
    have reach : 0 < Decimal.exponentReach := by decide
    have nonzero : parts.exponent.natAbs ≠ 0 := by omega
    obtain ⟨negative, digits, power⟩ := Parts.exists_power nonzero
    rw [Parts.natAbs_exponent power] at small
    have large : Decimal.exponentReach ≤ natural digits := by omega
    have reads := nearest_of_large h power (Decimal.le_ofExponentDigits large) short
    rw [nearest.unique reads]
    exact nearest_of_large h power large short

/-- An integer is a numeral without a point and an exponent. -/
lemma spellsInteger_iff {n : Int} : SpellsInteger cs n ↔
    ∃ parts, Spells cs parts ∧ parts.places = none ∧ parts.power = none ∧ n = parts.read.toInt := by
  constructor
  · rintro ⟨sign, digits, negative, rfl, signed, some, all, rfl⟩
    refine ⟨⟨negative, digits, none, none⟩,
      ⟨sign, digits, [], (List.append_nil _).symm, signed, .whole some all, .none⟩, rfl, rfl, ?_⟩
    rw [Decimal.toInt, Parts.read, Parts.decimal, Parts.digits, Option.getD_none, List.append_nil]
  · rintro ⟨⟨negative, whole, places, power⟩, ⟨sign, body, tail, rfl, signed, significand, powered⟩,
      rfl, rfl, rfl⟩
    cases significand
    cases powered
    rename_i some all
    refine ⟨sign, whole, negative, List.append_nil _, signed, some, all, ?_⟩
    rw [Decimal.toInt, Parts.read, Parts.decimal, Parts.digits, Option.getD_none, List.append_nil]

end Numeral

namespace Number

variable {s : String} {parts : Numeral.Parts}

/-- An integer becomes a number if it is one of the integers with 64 bits. -/
lemma ofInt?_eq_some {n : Int} {x : Number} :
    ofInt? n = some x ↔ ∃ m : Int64, x = int m ∧ m.toInt = n := by
  rw [ofInt?_eq, Option.map_eq_some_iff]
  constructor
  · rintro ⟨m, step, rfl⟩
    exact ⟨m, rfl, step?_eq_some.1 step⟩
  · rintro ⟨m, rfl, same⟩
    exact ⟨m, step?_eq_some.2 same, rfl⟩

/-- A numeral is an integer of 64 bits if it is written as one, and a binary64 number otherwise. -/
lemma read?_of_spells (h : Spells (Text.trim s).toList parts) :
    (∃ n : Int64, read? s = some (int n) ∧ parts.places = none ∧ parts.power = none ∧
      n.toInt = parts.read.toInt) ∨
    read? s = some (float parts.read.toBinary64) ∧
      ¬ (parts.places = none ∧ parts.power = none ∧ ∃ n : Int64, n.toInt = parts.read.toInt) := by
  have read := Decimal.read?_eq_some_iff.2 ⟨parts, h, rfl⟩
  have value : parts.numeral.value = parts.read := rfl
  have integral : parts.numeral.integral = true ↔ parts.places = none ∧ parts.power = none := by
    rw [Numeral.Parts.numeral, Bool.and_eq_true, Option.isNone_iff_eq_none, Bool.not_eq_true',
      Option.isSome_eq_false_iff, Option.isNone_iff_eq_none]
  cases fits : (if parts.numeral.integral then ofInt? parts.read.toInt else none) with
  | some x =>
    obtain ⟨whole, small⟩ := Option.ite_none_right_eq_some.1 fits
    obtain ⟨n, rfl, same⟩ := ofInt?_eq_some.1 small
    refine .inl ⟨n, ?_, (integral.1 whole).1, (integral.1 whole).2, same⟩
    rw [read?, read, Option.map_some, value, fits]
  | none =>
    refine .inr ⟨?_, ?_⟩
    · rw [read?, read, Option.map_some, value, fits]
    · rintro ⟨places, power, n, same⟩
      rw [if_pos (integral.2 ⟨places, power⟩), ofInt?_eq_some.2 ⟨n, rfl, same⟩] at fits
      cases fits

/-- A text that reads as a number is a numeral between white space. -/
lemma exists_spells {x : Number} (h : read? s = some x) :
    ∃ parts, Spells (Text.trim s).toList parts := by
  obtain ⟨numeral, read, -⟩ := Option.map_eq_some_iff.1 h
  obtain ⟨parts, spells, -⟩ := Decimal.read?_eq_some_iff.1 read
  exact ⟨parts, spells⟩

/-- A text reads as an integer if and only if it is a sign and digits that stand for it. -/
theorem read?_eq_int_iff {n : Int64} :
    read? s = some (int n) ↔ SpellsInteger (Text.trim s).toList n.toInt := by
  rw [spellsInteger_iff]
  constructor
  · intro read
    obtain ⟨parts, spells⟩ := exists_spells read
    rcases read?_of_spells spells with ⟨m, read', places, power, same⟩ | ⟨read', -⟩
    · rw [read] at read'
      cases read'
      exact ⟨parts, spells, places, power, same⟩
    · rw [read] at read'
      cases read'
  · rintro ⟨parts, spells, places, power, same⟩
    rcases read?_of_spells spells with ⟨m, read, -, -, same'⟩ | ⟨-, large⟩
    · rw [read, Int64.toInt.inj (same'.trans same.symm)]
    · exact absurd ⟨places, power, n, same⟩ large

/-- A text reads as a binary64 number if and only if it is a numeral but no integer of 64 bits. -/
theorem read?_eq_float_iff {x : Binary64} : read? s = some (float x) ↔
    (∀ n : Int64, ¬ SpellsInteger (Text.trim s).toList n.toInt) ∧
      ∃ parts, Spells (Text.trim s).toList parts ∧ x = parts.read.toBinary64 := by
  constructor
  · intro read
    refine ⟨fun n integer => ?_, ?_⟩
    · rw [read?_eq_int_iff.2 integer] at read
      cases read
    · obtain ⟨parts, spells⟩ := exists_spells read
      refine ⟨parts, spells, ?_⟩
      rcases read?_of_spells spells with ⟨m, read', -⟩ | ⟨read', -⟩
      · rw [read] at read'
        cases read'
      · rw [read] at read'
        exact float.inj (Option.some.inj read')
  · rintro ⟨other, parts, spells, rfl⟩
    rcases read?_of_spells spells with ⟨n, read, -⟩ | ⟨read, -⟩
    · exact absurd (read?_eq_int_iff.1 read) (other n)
    · exact read

/-- The characters of an integer read as it. -/
lemma read?_ofList_int {cs : List Char} {n : Int64} (integer : SpellsInteger cs n.toInt) :
    read? (.ofList cs) = some (int n) := by
  obtain ⟨parts, spells, -⟩ := spellsInteger_iff.1 integer
  rw [read?_eq_int_iff, trim_of_part spells.part]
  exact integer

/-- The characters of a numeral with a point or an exponent read as a binary64 number. -/
lemma read?_ofList_float {cs : List Char} (spells : Spells cs parts) {c : Char} (mem : c ∈ cs)
    (mark : c = '.' ∨ c = 'e') : read? (.ofList cs) = some (float parts.read.toBinary64) := by
  rw [read?_eq_float_iff, trim_of_part spells.part]
  refine ⟨fun n integer => ?_, parts, spells, rfl⟩
  obtain ⟨point, exponent⟩ := integer.plain c mem
  exact mark.elim point fun same => exponent (.inl same)

/-- A text reads as no number if and only if it is no numeral. -/
theorem read?_eq_none_iff : read? s = none ↔ ∀ parts, ¬ Spells (Text.trim s).toList parts := by
  constructor
  · intro none parts spells
    rcases read?_of_spells spells with ⟨n, read, -⟩ | ⟨read, -⟩ <;>
      · rw [none] at read
        cases read
  · intro other
    by_contra some
    obtain ⟨x, read⟩ := Option.ne_none_iff_exists'.1 some
    obtain ⟨parts, spells⟩ := exists_spells read
    exact other parts spells

end Number

namespace Library

variable {σ : Type} {it : Interpreter σ} {a b : String}

/-- A text that is no number is a fault where a number is needed. -/
lemma numbers_pair_of_none (h : Number.read? a = none ∨ Number.read? b = none) :
    ∃ text, Reading.numbers [a, b] = .error (.notNumber text) := by
  rw [Reading.numbers, List.mapM_cons, List.mapM_cons, Reading.number, Reading.number]
  cases first : Number.read? a with
  | none => exact ⟨a, rfl⟩
  | some x =>
    cases second : Number.read? b with
    | none => exact ⟨b, rfl⟩
    | some y =>
      rw [first, second] at h
      rcases h with h | h <;> cases h

/-- Where one of two arguments is no number, they are equal if they are the same text. -/
lemma answers_equal_texts (compares : Compares it)
    (h : Number.read? a = none ∨ Number.read? b = none) :
    it.Answers "eq?" [a, b] (Reading.ofBool (a == b)) := by
  obtain ⟨text, fails⟩ := numbers_pair_of_none h
  have served := compares ("eq?", Ordering.isEq) (by simp [orderTests])
  refine answers_of_pureExpansion (by decide) served rfl fun call args => ?_
  have texts : equal call = .ok (a == b) := by
    rw [equal, requireArgs_two args, args]
    dsimp only
    rw [fails]
    rfl
  rw [texts]
  rfl

end Library

/-- Reading a text as a number is exact. It is an integer if and only if it is a sign and digits for an
integer of 64 bits. It is a binary64 number if and only if it is another numeral, and then the one that
is nearest to the numeral, whose exponent is taken as it is written unless the exponent has reached the
bound before its last digit and the text has as many characters as it takes to make up for that. Every
other text is no number: it is a fault of the format where a number is needed, and compared as a text. -/
theorem reading_is_exact {σ : Type} {it : Interpreter σ} (compares : Library.Compares it)
    (s : String) :
    let cs := (Text.trim s).toList
    (∀ n : Int64, Number.read? s = some (.int n) ↔ SpellsInteger cs n.toInt) ∧
    (∀ x, Number.read? s = some (.float x) ↔ (∀ n : Int64, ¬ SpellsInteger cs n.toInt) ∧
      ∃ parts, Spells cs parts ∧ x.NearestTo parts.negative parts.read.magnitude) ∧
    (∀ parts, Spells cs parts → parts.exponent.natAbs < 10 * Decimal.exponentReach ∨
        cs.length + Decimal.hugePower ≤ Decimal.exponentReach →
      ∀ x : Binary64, x.NearestTo parts.negative parts.read.magnitude ↔
        x.NearestTo parts.negative parts.exact.magnitude) ∧
    (Number.read? s = none ↔ ∀ parts, ¬ Spells cs parts) ∧
    (∀ c ∈ cs, 128 ≤ c.toNat → Number.read? s = none) ∧
    (Number.read? s = none →
      Reading.number s = .error (.notNumber s) ∧ Reading.integer s = .error (.notNumber s) ∧
      (Fault.notNumber s).kind = .format ∧
      ∀ other, it.Answers "eq?" [s, other] (Reading.ofBool (s == other)) ∧
        it.Answers "eq?" [other, s] (Reading.ofBool (other == s))) := by
  intro cs
  have nearest (parts : Numeral.Parts) :
      parts.read.toBinary64.NearestTo parts.negative parts.read.magnitude :=
    parts.read.toBinary64_nearest
  refine ⟨fun n => Number.read?_eq_int_iff, fun x => ?_, fun parts spells plain x => ?_,
    Number.read?_eq_none_iff, fun c mem strange => ?_, fun none => ?_⟩
  · rw [Number.read?_eq_float_iff]
    refine and_congr_right fun _ => exists_congr fun parts => and_congr_right fun _ => ?_
    constructor
    · rintro rfl
      exact nearest parts
    · exact fun near => near.unique (nearest parts)
  · have exact := nearest_exact spells plain
    constructor
    · intro near
      rwa [near.unique (nearest parts)]
    · intro near
      rw [near.unique exact]
      exact nearest parts
  · refine Number.read?_eq_none_iff.2 fun parts spells => ?_
    have plain := (spells.part c mem).plain.1
    omega
  · have number : Reading.number s = .error (.notNumber s) := by
      rw [Reading.number, none]
    refine ⟨number, ?_, rfl, fun other => ⟨?_, ?_⟩⟩
    · rw [Reading.integer, number]
      rfl
    · exact Library.answers_equal_texts compares (.inl none)
    · exact Library.answers_equal_texts compares (.inr none)

/-- The digit three of another script is a text. -/
theorem arabic_digit_is_text : Library.Compares Console.interpreter ∧ Number.read? "٣" = none ∧
    Reading.number "٣" = .error (.notNumber "٣") ∧
    Console.interpreter.Answers "eq?" ["٣", "3"] (Reading.ofBool false) := by
  obtain ⟨-, -, -, -, strange, text⟩ := reading_is_exact Library.console_compares "٣"
  have none : Number.read? "٣" = none := strange '٣' (by decide +kernel) (by decide)
  obtain ⟨fails, -, -, compared⟩ := text none
  exact ⟨Library.console_compares, none, fails, (compared "3").1⟩

/-- A one with so many zeros and an exponent that takes more of them away. -/
def oneWithZeros (zeros : Nat) : Numeral.Parts :=
  ⟨false, '1' :: List.replicate zeros '0', none, some (true, "655360".toList)⟩

/-- The numeral is one. -/
lemma oneWithZeros_spells (zeros : Nat) :
    Spells ('1' :: List.replicate zeros '0' ++ "e-655360".toList) (oneWithZeros zeros) := by
  refine ⟨[], _, _, rfl, .none, .whole (List.cons_ne_nil _ _) fun c mem => ?_,
    .some (.inl rfl) .minus (by decide) (List.all_eq_true.1 (by decide))⟩
  rcases List.mem_cons.1 mem with rfl | zero
  · decide
  · rw [List.eq_of_mem_replicate zero]
    decide

/-- Its magnitude depends on how much of the exponent is read. -/
lemma oneWithZeros_magnitude (zeros : Nat) (size : List Char → Nat) :
    ((oneWithZeros zeros).decimal size).magnitude =
      10 ^ ((zeros : Int) - size "655360".toList) := by
  have digits : ((oneWithZeros zeros).decimal size).digits = 10 ^ zeros := by
    show natural (('1' :: List.replicate zeros '0') ++ []) = _
    rw [List.append_nil, natural, Nat.ofDigitChars_cons, Nat.ofDigitChars_replicate_zero]
    exact Nat.mul_one _
  have exponent : ((oneWithZeros zeros).decimal size).exponent = -(size "655360".toList : Int) :=
    Int.sub_zero _
  rw [Decimal.magnitude, digits, exponent, Nat.cast_pow, Nat.cast_ofNat, sub_eq_add_neg,
    zpow_add₀ (by norm_num), zpow_natCast]

/-- A one with so many zeros and an exponent that takes ten times as many away stands for next to
nothing, but is read as one: the last digit of the exponent is passed over. -/
theorem long_exponent_is_cut :
    let text := String.ofList ('1' :: List.replicate 65536 '0' ++ "e-655360".toList)
    (∃ parts, Spells (Text.trim text).toList parts ∧
      (Binary64.finite false 0).NearestTo parts.negative parts.exact.magnitude) ∧
    Number.read? text = some (.float (.finite false Binary64.unitsPerOne)) := by
  have cut (zeros : Nat) (reached : zeros = Decimal.ofExponentDigits "655360".toList)
      (far : natural "655360".toList = 10 * zeros) (many : Decimal.hugePower < zeros) :
      let text := String.ofList ('1' :: List.replicate zeros '0' ++ "e-655360".toList)
      (∃ parts, Spells (Text.trim text).toList parts ∧
        (Binary64.finite false 0).NearestTo parts.negative parts.exact.magnitude) ∧
      Number.read? text = some (.float (.finite false Binary64.unitsPerOne)) := by
    have spells := oneWithZeros_spells zeros
    refine ⟨⟨oneWithZeros zeros, ?_, ?_⟩, ?_⟩
    · rw [trim_of_part spells.part]
      exact spells
    · apply Decimal.nearest_zero (Decimal.magnitude_nonneg _)
      rw [Numeral.Parts.exact, oneWithZeros_magnitude, far]
      exact zpow_lt_zpow_right₀ (by norm_num) (by omega)
    · have one : (Binary64.finite false Binary64.unitsPerOne).NearestTo false
          (oneWithZeros zeros).read.magnitude := by
        apply Binary64.NearestTo.of_significant Binary64.significant_unitsPerOne
          Binary64.unitsPerOne_lt_overflowUnits
        rw [Numeral.Parts.read, oneWithZeros_magnitude, ← reached, sub_self, zpow_zero, one_mul]
      rw [one.unique (oneWithZeros zeros).read.toBinary64_nearest]
      exact Number.read?_ofList_float spells (List.mem_append_right _ (by decide)) (.inr rfl)
  exact cut 65536 (by decide) (by decide) (by decide)

end Scriptlet
