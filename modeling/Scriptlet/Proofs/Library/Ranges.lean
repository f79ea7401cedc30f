import Scriptlet.Proofs.Library.Exact
import Scriptlet.Proofs.Library.Expansions
import Scriptlet.Proofs.Numeric.Writing

/-!
# Ranges

A range lists the integers between its bounds or is refused because there are too many. The bounds
are the integers that are written if both have at most 64 bits. If not, both are read as binary64
numbers and cut off at the bounds of the integers of 64 bits (`Bounds`), which keeps their order but
not how far they are apart (`large_bounds_fall_together`).
-/

namespace Scriptlet

open Binary64 Number

namespace Binary64

variable {x y : Binary64}

/-- The number nearest to an integer. -/
lemma ofInt_nearest (n : Int) : (ofInt n).NearestTo (n < 0) n.natAbs := by
  have closest := roundUnits_closest (n.natAbs * unitsPerOne) Nat.one_pos
  rw [Nat.cast_one, div_one, Nat.cast_mul] at closest
  exact ⟨_, closest, rfl⟩

/-- Whole parts are in the order of the numbers. -/
lemma signedUnits_div_le {s t : Bool} {a b : Nat} (le : signedUnits s a ≤ signedUnits t b)
    (units : Nat) : signedUnits s (a / units) ≤ signedUnits t (b / units) := by
  cases s with
  | true =>
    cases t with
    | true =>
      have le : b ≤ a := Int.ofNat_le.1 (Int.neg_le_neg_iff.1 le)
      exact Int.neg_le_neg (Int.ofNat_le.2 (Nat.div_le_div_right le))
    | false => exact Int.le_trans (Int.neg_nonpos_of_nonneg (Int.natCast_nonneg _)) (Int.natCast_nonneg _)
  | false =>
    cases t with
    | true =>
      change (a : Int) ≤ -(b : Int) at le
      obtain ⟨rfl, rfl⟩ : a = 0 ∧ b = 0 := by omega
      rw [Nat.zero_div]
      exact Int.le_refl _
    | false => exact Int.ofNat_le.2 (Nat.div_le_div_right (Int.ofNat_le.1 le))

/-- Cutting numbers off to integers keeps their order. -/
lemma truncate_mono {lo hi : Int} (bounds : lo ≤ hi) (hx : x ≠ nan) (hy : y ≠ nan)
    (le : y.lt x = false) : x.truncate lo hi ≤ y.truncate lo hi := by
  cases x with
  | nan => exact absurd rfl hx
  | infinite s =>
    cases y with
    | nan => exact absurd rfl hy
    | infinite t => cases s <;> cases t <;> simp_all [truncate, lt]
    | finite t b => cases s <;> simp_all [truncate, lt]
  | finite s a =>
    cases y with
    | nan => exact absurd rfl hy
    | infinite t => cases t <;> simp_all [truncate, lt]
    | finite t b =>
      have le := signedUnits_div_le (Int.not_lt.1 (of_decide_eq_false le)) unitsPerOne
      rw [truncate, truncate]
      omega

/-- What is cut off at the bounds of the integers of 64 bits is one of them. -/
lemma fits_truncate (x : Binary64) : Fits (x.truncate minInt maxInt) := by
  rw [Fits, minInt, maxInt]
  cases x with
  | nan => decide
  | infinite s => cases s <;> decide
  | finite s a =>
    rw [truncate]
    omega

end Binary64

/-- A decimal that is an integer other than zero reads as the number nearest to it. -/
lemma Decimal.nearest_toInt (d : Decimal) (whole : d.exponent = 0) (nonzero : d.toInt ≠ 0) :
    d.toBinary64.NearestTo (d.toInt < 0) d.toInt.natAbs := by
  have nearest := d.toBinary64_nearest
  rw [magnitude, whole, zpow_zero, mul_one] at nearest
  rw [toInt] at nonzero ⊢
  cases sign : d.negative with
  | true =>
    rw [sign, if_pos rfl] at nonzero
    have below : -(d.digits : Int) < 0 := by omega
    rw [sign] at nearest
    rwa [if_pos rfl, decide_eq_true below, Int.natAbs_neg, Int.natAbs_natCast]
  | false =>
    have not_below : ¬ (d.digits : Int) < 0 := by omega
    rw [sign] at nearest
    rwa [if_neg Bool.false_ne_true, decide_eq_false not_below, Int.natAbs_natCast]

namespace Numeral

/-- Characters stand for one integer only. -/
lemma SpellsInteger.unique {cs : List Char} {m n : Int} (h : SpellsInteger cs m)
    (h' : SpellsInteger cs n) : m = n := by
  obtain ⟨parts, spells, -, -, rfl⟩ := spellsInteger_iff.1 h
  obtain ⟨parts', spells', -, -, rfl⟩ := spellsInteger_iff.1 h'
  have read := Decimal.read?_eq_some_iff.2 ⟨parts, spells, rfl⟩
  have read' := Decimal.read?_eq_some_iff.2 ⟨parts', spells', rfl⟩
  rw [read] at read'
  exact congrArg (fun numeral => numeral.value.toInt) (Option.some.inj read')

end Numeral

namespace Library

open Numeral

variable {σ : Type} {it : Interpreter σ} {a b : String} {m n lower upper : Int}

/-- An integer that is written reads as itself if it has at most 64 bits, and otherwise as the binary64
number nearest to it. -/
lemma read?_of_spellsInteger (h : SpellsInteger (Text.trim a).toList m) :
    ∃ x, read? a = some x ∧ x.toBinary64.NearestTo (m < 0) m.natAbs ∧
      ((Fits m ∧ ∃ k : Int64, x = .int k ∧ k.toInt = m) ∨ (¬ Fits m ∧ x = .float x.toBinary64)) := by
  obtain ⟨parts, spells, places, power, rfl⟩ := spellsInteger_iff.1 h
  rcases read?_of_spells spells with ⟨k, read, -, -, same⟩ | ⟨read, large⟩
  · refine ⟨.int k, read, ?_, .inl ⟨same ▸ fits_toInt k, k, rfl, same⟩⟩
    rw [← same]
    exact ofInt_nearest k.toInt
  · have beyond : ¬ Fits parts.read.toInt := by
      rintro ⟨low, high⟩
      exact large ⟨places, power, .ofInt _, Int64.toInt_ofInt_of_le low (Int.lt_add_one_of_le high)⟩
    refine ⟨.float parts.read.toBinary64, read, ?_, .inr ⟨beyond, rfl⟩⟩
    have whole : parts.read.exponent = 0 := by
      rw [Parts.read, Parts.decimal, places, power]
      rfl
    have zero_fits : Fits 0 := by decide
    exact parts.read.nearest_toInt whole fun zero => beyond (zero ▸ zero_fits)

/-- The integers that a range is between, for the integers that are written. -/
inductive Bounds (m n : Int) : (lower upper : Int) → Prop
  | exact (fits : Fits m ∧ Fits n) : Bounds m n m n
  /-- If one of them has more than 64 bits, both are read as the binary64 numbers nearest to them, and
  these are cut off. -/
  | rounded {x y : Binary64} (beyond : ¬ (Fits m ∧ Fits n)) (lower : x.NearestTo (m < 0) m.natAbs)
      (upper : y.NearestTo (n < 0) n.natAbs) :
      Bounds m n (x.truncate minInt maxInt) (y.truncate minInt maxInt)

/-- Bounds that are written in the wrong order are not in order. -/
lemma Bounds.le (h : Bounds m n lower upper) (le : n ≤ m) : upper ≤ lower := by
  cases h with
  | exact _ => exact le
  | rounded _ hx hy =>
    rw [hx.unique (ofInt_nearest m), hy.unique (ofInt_nearest n)]
    apply truncate_mono (by decide) (ofInt_ne_nan n) (ofInt_ne_nan m)
    exact ofInt_mono le

/-- The numbers that two integers are read as, and what they are cut off to. -/
lemma exists_bounds (ha : SpellsInteger (Text.trim a).toList m)
    (hb : SpellsInteger (Text.trim b).toList n) :
    ∃ p q : Number, Reading.numbers [a, b] = .ok [p, q] ∧
      Bounds m n p.truncate.toInt q.truncate.toInt := by
  obtain ⟨x, readx, nearestx, kindx⟩ := read?_of_spellsInteger ha
  obtain ⟨y, ready, nearesty, kindy⟩ := read?_of_spellsInteger hb
  rw [numbers_pair readx ready]
  have cut : ∀ z : Binary64, (Number.float z).truncate.toInt = z.truncate minInt maxInt := by
    intro z
    have fits := fits_truncate z
    exact Int64.toInt_ofInt_of_le fits.1 (Int.lt_add_one_of_le fits.2)
  by_cases fits : Fits m ∧ Fits n
  · obtain ⟨-, k, rfl, rfl⟩ := kindx.resolve_right fun beyond => beyond.1 fits.1
    obtain ⟨-, l, rfl, rfl⟩ := kindy.resolve_right fun beyond => beyond.1 fits.2
    exact ⟨_, _, rfl, .exact fits⟩
  · -- one of the two reads as a binary64 number, and so both are turned into such
    have mixed : [x, y].any isFloat = true := by
      rcases kindx with ⟨fitsx, -⟩ | ⟨-, rounded⟩
      · obtain ⟨-, rounded⟩ := kindy.resolve_left fun other => fits ⟨fitsx, other.1⟩
        rw [rounded]
        exact Bool.or_true _
      · rw [rounded]
        rfl
    refine ⟨x.toFloat, y.toFloat, by rw [promote, if_pos mixed]; rfl, ?_⟩
    rw [toFloat, toFloat, cut, cut]
    exact .rounded fits nearestx nearesty

/-- A range has as many items as its bounds are apart. -/
lemma length_rangeItems (lower upper : Int) :
    (rangeItems lower upper).length = (upper - lower).toNat := by
  rw [rangeItems, List.length_map, List.length_range]

/-- The items of a range count on from the lower bound. -/
lemma getElem_rangeItems {i : Nat} (there : i < (rangeItems lower upper).length) :
    (rangeItems lower upper)[i] = toString (lower + i) := by
  simp [rangeItems]

/-- No item of a range comes twice. -/
lemma nodup_rangeItems (lower upper : Int) : (rangeItems lower upper).Nodup := by
  apply List.nodup_range.map
  intro i j same
  have first := spellsInteger_toString (lower + i)
  have second := spellsInteger_toString (lower + j)
  change toString (lower + i) = toString (lower + j) at same
  rw [same] at first
  have := first.unique second
  omega

/-- The items of a range are words of its text. -/
lemma words_rangeItems (lower upper : Int) :
    Text.words (Text.unwords (rangeItems lower upper)) = rangeItems lower upper := by
  apply Text.words_unwords_of_isWord
  intro item mem
  obtain ⟨i, -, rfl⟩ := List.mem_map.1 mem
  obtain ⟨parts, spells, -⟩ := spellsInteger_iff.1 (spellsInteger_toString (lower + i))
  refine ⟨?_, fun c mem => (spells.part c mem).plain.2⟩
  rw [toList_toString]
  exact List.append_ne_nil_of_right_ne_nil _ Nat.toDigits_ne_nil

/-- A range of two integers is refused if there are more than the ceiling of them between its bounds,
and else lists them in order, each once. -/
theorem range_lists_or_refuses
    (served : Chain.handlerFor? (it.registry.chain .expansion) "rangev" = some vectors.toHandler)
    (ha : SpellsInteger (Text.trim a).toList m) (hb : SpellsInteger (Text.trim b).toList n) :
    ∃ lower upper, Bounds m n lower upper ∧
      (maxRangeItems < upper - lower → ∃ fault, fault.kind = .resourceLimit ∧
        it.Refuses "rangev" [a, b] fault) ∧
      (upper - lower ≤ maxRangeItems → ∃ items, it.Answers "rangev" [a, b] (Text.unwords items) ∧
        it.Fills "rangev" [a, b] items ∧ items.length = (upper - lower).toNat ∧ items.Nodup ∧
        ∀ i (there : i < items.length), items[i] = toString (lower + i)) ∧
      (n ≤ m → it.Answers "rangev" [a, b] "" ∧ it.Fills "rangev" [a, b] []) := by
  obtain ⟨p, q, numbers, bounds⟩ := exists_bounds ha hb
  let lower := p.truncate.toInt
  let upper := q.truncate.toInt
  have ranged : ∀ call : Call, call.args = [a, b] → range call =
      if maxRangeItems < upper - lower then .error (.rangeCeiling maxRangeItems)
      else .ok (Text.unwords (rangeItems lower upper)) := by
    intro call args
    have enough : call.requireMinArgs 2 = .ok () := by
      rw [Call.requireMinArgs, args]
      rfl
    have two : call.args.take 2 = [a, b] := by
      rw [args]
      rfl
    rw [range, enough, two, numbers]
    rfl
  have lists : upper - lower ≤ maxRangeItems →
      it.Answers "rangev" [a, b] (Text.unwords (rangeItems lower upper)) := by
    intro few
    apply answers_of_pureExpansion (by decide) served rfl
    intro call args
    rw [ranged call args, if_neg (Int.not_lt.2 few)]
  refine ⟨lower, upper, bounds, ?_, ?_, ?_⟩
  · intro many
    refine ⟨.rangeCeiling maxRangeItems, rfl, ?_⟩
    apply refuses_of_pureExpansion served rfl
    intro call args
    rw [ranged call args, if_pos many]
  · intro few
    have answers := lists few
    refine ⟨rangeItems lower upper, answers, ?_, length_rangeItems lower upper,
      nodup_rangeItems lower upper, fun i there => getElem_rangeItems there⟩
    rw [← words_rangeItems]
    exact answers.fills
  · intro wrong
    have ordered := bounds.le wrong
    have none : rangeItems lower upper = [] := by
      apply List.eq_nil_of_length_eq_zero
      rw [length_rangeItems]
      omega
    have ceiling : (0 : Int) ≤ maxRangeItems := by decide
    have answers := lists (by omega)
    rw [none] at answers
    exact ⟨answers, answers.fills⟩

/-- A short range of small integers lists what is between them. -/
theorem three_up_to_six :
    Chain.handlerFor? (Console.interpreter.registry.chain .expansion) "rangev" =
      some Library.vectors.toHandler ∧
    SpellsInteger (Text.trim "3").toList 3 ∧ SpellsInteger (Text.trim "6").toList 6 ∧
    Console.interpreter.Fills "rangev" ["3", "6"] ["3", "4", "5"] := by
  have three : SpellsInteger (Text.trim "3").toList 3 :=
    read?_eq_int_iff (n := 3).1 (by decide +kernel)
  have six : SpellsInteger (Text.trim "6").toList 6 :=
    read?_eq_int_iff (n := 6).1 (by decide +kernel)
  have served : Chain.handlerFor? (Console.interpreter.registry.chain .expansion) "rangev" =
      some Library.vectors.toHandler := rfl
  obtain ⟨lower, upper, bounds, -, lists, -⟩ := range_lists_or_refuses served three six
  cases bounds with
  | exact _ =>
    obtain ⟨items, -, fills, length, -, each⟩ := lists (by decide)
    have same : items = ["3", "4", "5"] := by
      apply List.ext_getElem length
      intro i there there'
      rw [each i there]
      match i, there' with
      | 0, _ => rfl
      | 1, _ => rfl
      | 2, _ => rfl
    rw [same] at fills
    exact ⟨served, three, six, fills⟩
  | rounded beyond _ _ => exact absurd (by decide) beyond

/-- One integer is between these two bounds, but it is not listed: both are cut off to the same
integer. -/
theorem large_bounds_fall_together :
    let range a b : Word Token := .vector default (.substitution default (.literal default "rangev")
      [.literal default a, .literal default b])
    (Word.slots (Console.interpreter.expand 1) (range "9223372036854775807" "9223372036854775808")
      ⟨.initial, Console.start [] 0⟩).map (fun ended => ended.1.toOption) = some (some []) ∧
    (9223372036854775808 : Int) - 9223372036854775807 = 1 := by
  decide +kernel

end Library

end Scriptlet
