import Scriptlet.Numeric.Shortest
import Scriptlet.Proofs.Numeric.Format

/-!
# Writing numbers as texts

An integer is written as its digits, and a finite number of the format as the fewest digits to which
no other number of the format is nearer, with a point or an exponent. So each text reads back as the
number, and as a number of the same kind (`Number.read?_text`).
-/

namespace Scriptlet

namespace Numeral

variable {cs ds : List Char}

/-- Digits behind others move them up by as many places. -/
lemma natural_append (cs ds : List Char) :
    natural (cs ++ ds) = natural cs * 10 ^ ds.length + natural ds := by
  rw [natural, Nat.ofDigitChars_append]
  exact Decimal.foldl_addDigit _ _

/-- Zeros stand for zero. -/
lemma natural_zeros (n : Nat) : natural (Shortest.zeros n) = 0 := by
  rw [natural, Shortest.zeros, Nat.ofDigitChars_replicate_zero, Nat.mul_zero]

/-- Zeros in front do not count. -/
lemma natural_zeros_append (n : Nat) : natural (Shortest.zeros n ++ ds) = natural ds := by
  rw [natural_append, natural_zeros, Nat.zero_mul, Nat.zero_add]

/-- The digits of a number stand for it. -/
lemma natural_toDigits (n : Nat) : natural (Nat.toDigits 10 n) = n :=
  Nat.ofDigitChars_toDigits (by decide) (by decide)

/-- The digits of a number are digits. -/
lemma allDigits_toDigits (n : Nat) : AllDigits (Nat.toDigits 10 n) :=
  fun _ mem => Nat.isDigit_of_mem_toDigits (by decide) (by decide) mem

/-- Zeros are digits. -/
lemma allDigits_zeros (n : Nat) : AllDigits (Shortest.zeros n) := by
  intro c mem
  rw [List.eq_of_mem_replicate mem]
  rfl

/-- Digits behind digits are digits. -/
lemma AllDigits.append (front : AllDigits cs) (back : AllDigits ds) : AllDigits (cs ++ ds) :=
  fun c mem => (List.mem_append.1 mem).elim (front c) (back c)

/-- The sign in front of what is negative. -/
def signOf (negative : Bool) : List Char :=
  if negative then ['-'] else []

/-- The sign that is written reads as the sign. -/
lemma signOf_sign (negative : Bool) : Sign (signOf negative) negative := by
  cases negative with
  | false => exact .none
  | true => exact .minus

/-- An integer is written as its sign and its digits. -/
lemma toList_toString (n : Int) :
    (toString n).toList = signOf (n < 0) ++ Nat.toDigits 10 n.natAbs := by
  cases n with
  | ofNat n =>
    show (toString n).toList = _
    rw [Nat.toString_eq_repr, Nat.toList_repr]
    rfl
  | negSucc n =>
    show ("-" ++ toString (n + 1)).toList = _
    have minus : "-".toList = ['-'] := by decide
    rw [String.toList_append, Nat.toString_eq_repr, Nat.toList_repr, minus,
      decide_eq_true (Int.negSucc_lt_zero n)]
    rfl

/-- The exponent that is written reads as the exponent. -/
lemma powerOfTen_toDigits (n : Int) :
    powerOfTen natural (some (n < 0, Nat.toDigits 10 n.natAbs)) = n := by
  rw [powerOfTen, natural_toDigits]
  split
  · rename_i low
    have := of_decide_eq_true low
    omega
  · rename_i low
    have := of_decide_eq_false (Bool.eq_false_of_not_eq_true low)
    omega

/-- An integer is written as a numeral for it. -/
lemma spellsInteger_toString (n : Int) : SpellsInteger (toString n).toList n :=
  ⟨_, _, _, toList_toString n, signOf_sign _, Nat.toDigits_ne_nil, allDigits_toDigits _,
    (powerOfTen_toDigits n).symm⟩

/-- The characters are a numeral with a point or an exponent, which is not large, for a number of this
sign and this magnitude. -/
def Denotes (cs : List Char) (negative : Bool) (size : ℚ) : Prop :=
  ∃ parts, Spells cs parts ∧ parts.negative = negative ∧ parts.exact.magnitude = size ∧
    parts.exponent.natAbs < 10 * Decimal.exponentReach ∧ ∃ c ∈ cs, c = '.' ∨ c = 'e'

/-- A numeral reads as the number of the format that is nearest to what it stands for. -/
lemma Denotes.reads {negative : Bool} {size : ℚ} {x : Binary64} (h : Denotes cs negative size)
    (nearest : x.NearestTo negative size) : Number.read? (.ofList cs) = some (.float x) := by
  obtain ⟨parts, spells, rfl, rfl, small, c, mem, mark⟩ := h
  rw [nearest.unique (nearest_exact spells (.inl small))]
  exact Number.read?_ofList_float spells mem mark

end Numeral

namespace Shortest

open Numeral

variable {ds : List Char} {units : Nat}

/-- Digits with a point between them are a significand for them and the place of the point. -/
lemma positional_significand (all : AllDigits ds) (some : ds ≠ []) (whole : Int) :
    ∃ front places, Significand (positional ds whole) front (Option.some places) ∧
      (natural (front ++ places) : ℚ) * 10 ^ (-(places.length : Int)) =
        natural ds * 10 ^ (whole - ds.length) := by
  rw [positional]
  split
  · -- the point is in front of all digits
    rename_i low
    refine ⟨['0'], zeros whole.natAbs ++ ds, .pointed (List.cons_ne_nil _ _) (allDigits_zeros 1)
      ((allDigits_zeros _).append all), ?_⟩
    rw [natural_append, natural_zeros_append, List.length_append, zeros, List.length_replicate]
    have zero : natural ['0'] = 0 := rfl
    have place : (-((whole.natAbs + ds.length : Nat) : Int)) = whole - ds.length := by omega
    rw [zero, Nat.zero_mul, Nat.zero_add, place]
  · rename_i high
    obtain ⟨count, rfl⟩ : ∃ count : Nat, whole = count := ⟨whole.natAbs, by omega⟩
    rw [Int.natAbs_natCast]
    dsimp only
    split
    · -- it is behind all of them
      rename_i short
      have zero : natural ['0'] = 0 := rfl
      have place : (count : Int) - ds.length = ((count - ds.length : Nat) : Int) := by omega
      refine ⟨ds ++ zeros (count - ds.length), ['0'], .pointed ?_
        (all.append (allDigits_zeros _)) (allDigits_zeros 1), ?_⟩
      · exact fun none => some (List.append_eq_nil_iff.1 none).1
      · rw [natural_append, natural_append, natural_zeros, zeros, List.length_replicate, zero, place,
          zpow_natCast, List.length_singleton, Nat.cast_one, zpow_neg_one]
        push_cast
        ring
    · -- it is between two of them
      rename_i long
      have filled : ds.take count ≠ [] := by
        rw [Ne, List.take_eq_nil_iff]
        rintro (none | none)
        · omega
        · exact some none
      have place : (-((ds.length - count : Nat) : Int)) = count - ds.length := by omega
      refine ⟨ds.take count, ds.drop count, .pointed filled
        (fun c mem => all c (List.mem_of_mem_take mem))
        (fun c mem => all c (List.mem_of_mem_drop mem)), ?_⟩
      rw [List.take_append_drop, List.length_drop, place]

/-- A significand with a point is one with a place for it. -/
lemma point_mem {cs front places : List Char} (h : Significand cs front (Option.some places)) :
    '.' ∈ cs := by
  cases h with
  | pointed => exact List.mem_append_right _ (List.mem_cons_self ..)
  | leading => exact List.mem_cons_self ..

/-- Digits with a point among them or zeros at an end stand for the digits times a power of ten. -/
lemma positional_denotes (negative : Bool) (all : AllDigits ds) (some : ds ≠ []) (whole : Int) :
    Denotes (signOf negative ++ positional ds whole) negative
      (natural ds * 10 ^ (whole - ds.length)) := by
  obtain ⟨front, places, significand, same⟩ := positional_significand all some whole
  refine ⟨⟨negative, front, Option.some places, none⟩,
    ⟨signOf negative, positional ds whole, [], (List.append_nil _).symm, signOf_sign negative,
      significand, .none⟩, rfl, ?_, Nat.succ_pos _, '.',
    List.mem_append_right _ (point_mem significand), .inl rfl⟩
  rw [← same, Parts.exact, Decimal.magnitude, Parts.decimal, powerOfTen, Int.zero_sub]
  rfl

/-- Digits with a point behind the first are a significand for them. -/
lemma scientific_significand (all : AllDigits ds) (some : ds ≠ []) (exponent : Int) :
    ∃ body front places, Significand body front places ∧
      scientific ds exponent = body ++ 'e' :: (toString exponent).toList ∧
      front ++ places.getD [] = ds ∧ (places.getD []).length + 1 = ds.length := by
  rw [scientific]
  match ds, some with
  | [c], _ => exact ⟨[c], [c], none, .whole (List.cons_ne_nil _ _) all, rfl, rfl, rfl⟩
  | c :: c' :: rest, _ =>
    refine ⟨[c] ++ '.' :: c' :: rest, [c], Option.some (c' :: rest), .pointed (List.cons_ne_nil _ _)
      (fun d mem => all d ?_) (fun d mem => all d (List.mem_cons_of_mem _ mem)), rfl, rfl, rfl⟩
    rw [List.mem_singleton.1 mem]
    exact List.mem_cons_self ..

/-- An exponent is written as one. -/
lemma power_toString (exponent : Int) : Power ('e' :: (toString exponent).toList)
    (some (exponent < 0, Nat.toDigits 10 exponent.natAbs)) := by
  rw [toList_toString]
  exact .some (.inl rfl) (signOf_sign _) Nat.toDigits_ne_nil (allDigits_toDigits _)

/-- Digits with an exponent stand for the same as long as the exponent is one that is read. -/
lemma scientific_denotes (negative : Bool) (all : AllDigits ds) (some : ds ≠ []) {whole : Int}
    (small : (whole - 1).natAbs < 10 * Decimal.exponentReach) :
    Denotes (signOf negative ++ scientific ds (whole - 1)) negative
      (natural ds * 10 ^ (whole - ds.length)) := by
  obtain ⟨body, front, places, significand, split, same, length⟩ :=
    scientific_significand all some (whole - 1)
  have exponent := powerOfTen_toDigits (whole - 1)
  refine ⟨⟨negative, front, places, _⟩, ⟨signOf negative, body, _, ?_, signOf_sign negative,
    significand, power_toString (whole - 1)⟩, rfl, ?_, ?_, 'e', ?_, .inr rfl⟩
  · rw [split, List.append_assoc]
  · have place : whole - 1 - ((places.getD []).length : Int) = whole - ds.length := by omega
    rw [Parts.exact, Decimal.magnitude, Parts.decimal, Parts.digits, same, exponent, place]
  · rwa [Parts.exponent, exponent]
  · rw [split]
    exact List.mem_append_right _ (List.mem_append_right _ (List.mem_cons_self ..))

section Digits

open Binary64 (Closest unitsPerOne overflowUnits Significant)

/-- How far the digits are from zero. -/
def Digits.size (d : Digits) : ℚ :=
  d.digits * 10 ^ d.exponent

/-- Digits that read back stand for a number to which the units are closest. -/
lemma onGrid_closest {exponent : Int} {d : Digits} (found : onGrid units exponent = some d) :
    Closest units (d.size * unitsPerOne) := by
  have reads : d.readsBack units = true := by
    rw [onGrid] at found
    exact List.find?_some (p := fun d : Digits => d.readsBack units) found
  have closest := Decimal.units_closest d.digits d.exponent
  rwa [beq_iff_eq.1 reads] at closest

/-- All digits of a number of units, each of which is a power of five behind as many places. -/
lemma exactDigits_size (units : Nat) : (exactDigits units).size * unitsPerOne = units := by
  obtain ⟨count, places⟩ : ∃ count, 1074 = count := ⟨_, rfl⟩
  have digits : (exactDigits units).digits = units * Nat.pow 5 count := by
    rw [exactDigits, places]
  have exponent : (exactDigits units).exponent = -(count : Int) := by
    rw [← places]
    rfl
  have one : unitsPerOne = Nat.pow 2 count := by
    delta unitsPerOne
    rw [places]
  have ten : (10 : ℚ) ^ count = 5 ^ count * 2 ^ count := by
    rw [← mul_pow]
    norm_num
  rw [Digits.size, digits, exponent, one, zpow_neg, zpow_natCast, ten, Nat.pow_eq, Nat.pow_eq]
  push_cast
  field_simp

/-- To the digits of a number of the format no other number of the format is nearer. -/
lemma digits_closest (significant : Significant units) :
    Closest units ((digits units).size * unitsPerOne) := by
  rw [digits]
  cases found : (exponents units).findSome? (onGrid units) with
  | none =>
    rw [Option.getD_none, exactDigits_size]
    exact .of_significant significant
  | some d =>
    obtain ⟨exponent, -, grid⟩ := List.exists_of_findSome?_eq_some found
    exact onGrid_closest grid

/-- Where the digits of a number begin: it is between two neighbouring powers of ten. -/
lemma toDigits_between {n : Nat} (nonzero : n ≠ 0) :
    10 ^ ((Nat.toDigits 10 n).length - 1) ≤ n ∧ n < 10 ^ (Nat.toDigits 10 n).length := by
  have some : 0 < (Nat.toDigits 10 n).length := Nat.length_toDigits_pos
  refine ⟨?_, (Nat.length_toDigits_le_iff (by decide) some).1 (Nat.le_refl _)⟩
  by_contra below
  rcases Nat.eq_zero_or_pos ((Nat.toDigits 10 n).length - 1) with one | more
  · rw [one] at below
    exact below (Nat.one_le_iff_ne_zero.2 nonzero)
  · have fewer := (Nat.length_toDigits_le_iff (by decide) more).2 (Nat.lt_of_not_le below)
    omega

/-- The point of a finite number that is not zero is not far away. -/
lemma whole_between {d : Decimal} (nonzero : units ≠ 0) (small : units < overflowUnits)
    (closest : Closest units (d.magnitude * unitsPerOne)) :
    ((Nat.toDigits 10 d.digits).length + d.exponent).natAbs ≤ Decimal.hugePower := by
  have nearest : (Binary64.finite false units).NearestTo false d.magnitude :=
    ⟨units, closest, (if_pos small).symm⟩
  have digits : d.digits ≠ 0 := by
    intro none
    rw [Decimal.magnitude_eq_zero none, zero_mul] at closest
    exact nonzero (closest.unique (.zero (le_refl _) (by norm_num)))
  obtain ⟨least, most⟩ := toDigits_between digits
  -- if it were, the number would be zero or an infinity, as these would be nearest too
  have low : -Decimal.hugePower < (Nat.toDigits 10 d.digits).length + d.exponent := by
    by_contra tiny
    have zero : (Binary64.finite false 0).NearestTo false d.magnitude :=
      Decimal.nearest_zero d.magnitude_nonneg (Decimal.magnitude_lt most (Int.le_of_not_gt tiny))
    cases nearest.unique zero
    exact nonzero rfl
  have high : (Nat.toDigits 10 d.digits).length + d.exponent ≤ Decimal.hugePower := by
    by_contra huge
    have some : 0 < (Nat.toDigits 10 d.digits).length := Nat.length_toDigits_pos
    have infinite : (Binary64.infinite false).NearestTo false d.magnitude :=
      Decimal.nearest_infinite (Decimal.pow_le_magnitude least (by omega))
    cases nearest.unique infinite
  omega

/-- The text of a number of the format is a numeral to which it is nearest. -/
lemma magnitude_denotes {negative : Bool} (significant : Significant units)
    (small : units < overflowUnits) :
    ∃ size, Denotes (signOf negative ++ magnitude units) negative size ∧
      (Binary64.finite negative units).NearestTo negative size := by
  by_cases zero : units = 0
  · refine ⟨0, ?_, Binary64.NearestTo.of_significant significant small ?_⟩
    · have pointed := positional_denotes negative (allDigits_zeros 1) (List.cons_ne_nil _ _) 1
      rw [natural_zeros, Nat.cast_zero, zero_mul] at pointed
      rw [magnitude, if_pos zero]
      exact pointed
    · rw [zero, zero_mul, Nat.cast_zero]
  · have closest := digits_closest significant
    let d : Decimal := ⟨negative, (digits units).digits, (digits units).exponent⟩
    have near := whole_between (d := d) zero small closest
    refine ⟨d.magnitude, ?_, units, closest, (if_pos small).symm⟩
    have size : d.magnitude = natural (Nat.toDigits 10 d.digits) *
        10 ^ ((Nat.toDigits 10 d.digits).length + d.exponent - (Nat.toDigits 10 d.digits).length) := by
      rw [natural_toDigits, add_sub_cancel_left, Decimal.magnitude]
    rw [magnitude, if_neg zero, size]
    dsimp only
    split
    · exact positional_denotes negative (allDigits_toDigits _) Nat.toDigits_ne_nil _
    · refine scientific_denotes negative (allDigits_toDigits _) Nat.toDigits_ne_nil ?_
      have reach : Decimal.hugePower + 1 < 10 * Decimal.exponentReach := by decide
      show ((Nat.toDigits 10 d.digits).length + d.exponent - 1).natAbs < _
      omega

end Digits

end Shortest

namespace Number

open Numeral

variable {n : Number}

/-- Whether the number is an integer or a finite binary64 number. -/
def isFinite : Number → Bool
  | int _ => true
  | float (.finite _ _) => true
  | float _ => false

/-- The text of a finite number reads back as the number. -/
lemma read?_text (sound : Sound n) (finite : n.isFinite = true) : read? n.text = some n := by
  cases n with
  | int m =>
    rw [text, ← String.ofList_toList (s := toString m.toInt)]
    exact read?_ofList_int (spellsInteger_toString m.toInt)
  | float x =>
    cases x with
    | nan => cases finite
    | infinite => cases finite
    | finite negative units =>
      cases sound with
      | finite significant small =>
        obtain ⟨size, denotes, nearest⟩ := Shortest.magnitude_denotes significant small
        exact denotes.reads nearest

/-- The text of what is not finite reads as no number. -/
lemma read?_text_of_infinite (infinite : n.isFinite = false) : read? n.text = none := by
  cases n with
  | int m => cases infinite
  | float x =>
    cases x with
    | nan => decide
    | infinite negative => cases negative <;> decide
    | finite => cases infinite

/-- The text of a binary64 number is never read as an integer. -/
lemma read?_text_float {x : Binary64} (sound : Sound (float x)) (m : Int64) :
    read? (float x).text ≠ some (int m) := by
  intro same
  cases finite : (float x).isFinite with
  | true =>
    rw [read?_text sound finite] at same
    cases same
  | false =>
    rw [read?_text_of_infinite finite] at same
    cases same

end Number

end Scriptlet
