import Mathlib.Data.List.TakeDrop
import Mathlib.Data.List.TakeWhile
import Scriptlet.Numeric.Number

/-!
# Numerals

The notation of numbers as a grammar over ASCII: an optional sign, digits with at most one point and
at least one digit, and an optional exponent (`Spells`). A numeral is read if and only if it is spelled
by that grammar, and then as what its parts say (`Decimal.read?_eq_some_iff`).
-/

namespace Scriptlet

namespace Numeral

/-- Nothing but ASCII digits. -/
def AllDigits (cs : List Char) : Prop :=
  ∀ c ∈ cs, c.isDigit = true

/-- An optional sign, and whether it is a minus. -/
inductive Sign : List Char → Bool → Prop where
  | none : Sign [] false
  | plus : Sign ['+'] false
  | minus : Sign ['-'] true

/-- Digits with at most one point and at least one digit: those in front of the point, and those
behind it if there is one. -/
inductive Significand : List Char → List Char → Option (List Char) → Prop where
  | whole {whole : List Char} : whole ≠ [] → AllDigits whole → Significand whole whole none
  | pointed {whole places : List Char} : whole ≠ [] → AllDigits whole → AllDigits places →
    Significand (whole ++ '.' :: places) whole (some places)
  | leading {places : List Char} : places ≠ [] → AllDigits places →
    Significand ('.' :: places) [] (some places)

/-- An optional exponent: whether it is negative, and its digits. -/
inductive Power : List Char → Option (Bool × List Char) → Prop where
  | none : Power [] none
  | some {mark : Char} {sign digits : List Char} {negative : Bool} : mark = 'e' ∨ mark = 'E' →
    Sign sign negative → digits ≠ [] → AllDigits digits →
    Power (mark :: (sign ++ digits)) (some (negative, digits))

/-- The parts of a numeral. -/
structure Parts where
  negative : Bool
  whole : List Char
  places : Option (List Char)
  power : Option (Bool × List Char)

/-- The characters are a numeral of these parts. -/
def Spells (cs : List Char) (parts : Parts) : Prop :=
  ∃ sign body power, cs = sign ++ body ++ power ∧ Sign sign parts.negative ∧
    Significand body parts.whole parts.places ∧ Power power parts.power

/-- The number that digits stand for. -/
def natural (digits : List Char) : Nat :=
  Nat.ofDigitChars 10 digits 0

/-- The characters are an optional sign and digits, which stand for the integer. -/
def SpellsInteger (cs : List Char) (n : Int) : Prop :=
  ∃ sign digits negative, cs = sign ++ digits ∧ Sign sign negative ∧ digits ≠ [] ∧
    AllDigits digits ∧
    n = if negative then -(natural digits : Int) else natural digits

/-- The power of ten that an exponent stands for, none being zero; `size` says what number its digits
stand for. -/
def powerOfTen (size : List Char → Nat) : Option (Bool × List Char) → Int
  | none => 0
  | some (negative, digits) => if negative then -(size digits : Int) else size digits

namespace Parts

/-- All digits of the significand. -/
def digits (parts : Parts) : List Char :=
  parts.whole ++ parts.places.getD []

/-- The decimal that the parts stand for; `size` says what number the digits of the exponent stand
for. -/
def decimal (size : List Char → Nat) (parts : Parts) : Decimal :=
  ⟨parts.negative, natural parts.digits,
    powerOfTen size parts.power - (parts.places.getD []).length⟩

/-- The exponent as it is written. -/
def exponent (parts : Parts) : Int :=
  powerOfTen natural parts.power

/-- The decimal that the parts stand for. -/
def exact (parts : Parts) : Decimal :=
  parts.decimal natural

/-- The decimal that is read: digits of the exponent are passed over once it is large. -/
def read (parts : Parts) : Decimal :=
  parts.decimal Decimal.ofExponentDigits

/-- The numeral that is read. -/
def numeral (parts : Parts) : Numeral :=
  ⟨parts.read, parts.places.isNone && !parts.power.isSome⟩

end Parts

section Shape

variable {cs rest : List Char} {kind : Char → Prop}

/-- The characters do not start with one of a kind. -/
def StartsNot (kind : Char → Prop) (cs : List Char) : Prop :=
  ∀ c ∈ cs.head?, ¬ kind c

/-- What stands in front decides what a text starts with, if there is anything. -/
lemma startsNot_append (some : cs ≠ []) (other : ∀ c ∈ cs, ¬ kind c) :
    StartsNot kind (cs ++ rest) := by
  cases cs with
  | nil => exact absurd rfl some
  | cons c cs =>
    rintro _ ⟨⟩
    exact other c (List.mem_cons_self ..)

/-- A digit is no other character of a numeral. -/
lemma ne_of_isDigit {c : Char} (digit : c.isDigit = true) :
    ¬ (c = '+' ∨ c = '-') ∧ c ≠ '.' ∧ ¬ (c = 'e' ∨ c = 'E') := by
  refine ⟨?_, ?_, ?_⟩
  · rintro (rfl | rfl) <;> exact absurd digit (by decide)
  · rintro rfl
    exact absurd digit (by decide)
  · rintro (rfl | rfl) <;> exact absurd digit (by decide)

/-- Digits start with no sign. -/
lemma startsNot_sign_of_digits (some : cs ≠ []) (all : AllDigits cs) :
    StartsNot (fun c => c = '+' ∨ c = '-') (cs ++ rest) :=
  startsNot_append some fun c mem => (ne_of_isDigit (all c mem)).1

/-- A point and the digits behind it, if there is a point. -/
def fraction : Option (List Char) → List Char
  | none => []
  | some places => '.' :: places

/-- A significand is its digits and the point between them. -/
lemma significand_iff {whole : List Char} {places : Option (List Char)} :
    Significand cs whole places ↔ cs = whole ++ fraction places ∧ AllDigits whole ∧
      (∀ digits ∈ places, AllDigits digits) ∧ whole ++ places.getD [] ≠ [] := by
  constructor
  · rintro (⟨filled, all⟩ | ⟨filled, all, behind⟩ | ⟨filled, behind⟩)
    · rw [fraction, List.append_nil, Option.getD_none, List.append_nil]
      exact ⟨rfl, all, nofun, filled⟩
    · refine ⟨rfl, all, ?_, fun none => filled (List.append_eq_nil_iff.1 none).1⟩
      rintro _ ⟨⟩
      exact behind
    · refine ⟨rfl, nofun, ?_, filled⟩
      rintro _ ⟨⟩
      exact behind
  · rintro ⟨rfl, all, behind, filled⟩
    cases places with
    | none =>
      rw [Option.getD_none, List.append_nil] at filled
      rw [fraction, List.append_nil]
      exact .whole filled all
    | some places =>
      cases whole with
      | nil => exact .leading filled (behind places rfl)
      | cons c whole => exact .pointed (List.cons_ne_nil c whole) all (behind places rfl)

/-- A numeral has at least one digit in its significand. -/
lemma Spells.digits {parts : Parts} (h : Spells cs parts) :
    AllDigits parts.digits ∧ parts.digits ≠ [] ∧ parts.digits.length ≤ cs.length := by
  obtain ⟨sign, body, power, rfl, -, significand, -⟩ := h
  obtain ⟨rfl, all, behind, filled⟩ := significand_iff.1 significand
  refine ⟨fun c mem => ?_, filled, ?_⟩
  · rcases List.mem_append.1 mem with front | back
    · exact all c front
    · obtain ⟨digits, places, inside⟩ : ∃ digits ∈ parts.places, c ∈ digits := by
        cases places : parts.places with
        | none =>
          rw [places] at back
          cases back
        | some digits =>
          rw [places] at back
          exact ⟨digits, rfl, back⟩
      exact behind digits places c inside
  · rw [Parts.digits]
    cases parts.places <;> simp [fraction] <;> omega

/-- The characters that a numeral can have. -/
def Part (c : Char) : Prop :=
  c.isDigit = true ∨ c = '+' ∨ c = '-' ∨ c = '.' ∨ c = 'e' ∨ c = 'E'

/-- The sign is made of characters of numerals. -/
lemma Sign.part {negative : Bool} (h : Sign cs negative) : ∀ c ∈ cs, Part c := by
  cases h with
  | none => exact nofun
  | plus =>
    intro c mem
    exact .inr (.inl (List.mem_singleton.1 mem))
  | minus =>
    intro c mem
    exact .inr (.inr (.inl (List.mem_singleton.1 mem)))

/-- The significand is made of characters of numerals. -/
lemma Significand.part {whole : List Char} {places : Option (List Char)}
    (h : Significand cs whole places) : ∀ c ∈ cs, Part c := by
  obtain ⟨rfl, all, behind, -⟩ := significand_iff.1 h
  intro c mem
  rcases List.mem_append.1 mem with front | back
  · exact .inl (all c front)
  · cases places with
    | none => cases back
    | some places =>
      rcases List.mem_cons.1 back with rfl | digit
      · exact .inr (.inr (.inr (.inl rfl)))
      · exact .inl (behind places rfl c digit)

/-- The power is made of characters of numerals. -/
lemma Power.part {power : Option (Bool × List Char)} (h : Power cs power) : ∀ c ∈ cs, Part c := by
  cases h with
  | none => exact nofun
  | some mark signed filled all =>
    intro c mem
    rcases List.mem_cons.1 mem with rfl | rest
    · exact .inr (.inr (.inr (.inr mark)))
    · rcases List.mem_append.1 rest with sign | digit
      · exact signed.part c sign
      · exact .inl (all c digit)

/-- So is the whole numeral. -/
lemma Spells.part {parts : Parts} (h : Spells cs parts) : ∀ c ∈ cs, Part c := by
  obtain ⟨sign, body, power, rfl, signed, significand, powered⟩ := h
  intro c mem
  rcases List.mem_append.1 mem with front | back
  · rcases List.mem_append.1 front with front | middle
    · exact signed.part c front
    · exact significand.part c middle
  · exact powered.part c back

/-- The characters of a numeral are ASCII and not blank. -/
lemma Part.plain {c : Char} (h : Part c) : c.toNat < 128 ∧ Text.isBlank c = false := by
  rcases h with digit | rfl | rfl | rfl | rfl | rfl
  · rw [Char.isDigit_iff_toNat] at digit
    have zero : '0'.toNat = 48 := rfl
    have nine : '9'.toNat = 57 := rfl
    refine ⟨by omega, ?_⟩
    simp only [Text.isBlank, Bool.or_eq_false_iff, Bool.and_eq_false_iff, decide_eq_false_iff_not,
      beq_eq_false_iff_ne]
    omega
  all_goals decide

/-- A numeral has no blanks that could be trimmed. -/
lemma trim_of_part (all : ∀ c ∈ cs, Part c) : (Text.trim (.ofList cs)).toList = cs := by
  have stays {cs : List Char} (all : ∀ c ∈ cs, Part c) : Text.dropBlanks cs = cs := by
    cases cs with
    | nil => rfl
    | cons c cs =>
      have bare := (all c (List.mem_cons_self ..)).plain.2
      exact List.dropWhile_cons_of_neg (by rw [bare]; exact Bool.false_ne_true)
  rw [Text.trim, String.toList_ofList, String.toList_ofList, stays all, Text.dropBlanksEnd,
    stays fun c mem => all c (List.mem_reverse.1 mem), List.reverse_reverse]

/-- An integer has neither a point nor the mark of an exponent. -/
lemma SpellsInteger.plain {n : Int} (h : SpellsInteger cs n) :
    ∀ c ∈ cs, c ≠ '.' ∧ ¬ (c = 'e' ∨ c = 'E') := by
  obtain ⟨sign, digits, negative, rfl, signed, -, all, -⟩ := h
  intro c mem
  rcases List.mem_append.1 mem with front | back
  · cases signed with
    | none => cases front
    | plus =>
      rw [List.mem_singleton.1 front]
      decide
    | minus =>
      rw [List.mem_singleton.1 front]
      decide
  · exact (ne_of_isDigit (all c back)).2

/-- An exponent starts with its mark. -/
lemma Power.starts {power : Option (Bool × List Char)} (h : Power cs power) :
    StartsNot (fun c => c = '+' ∨ c = '-' ∨ c = '.' ∨ c.isDigit = true) cs := by
  cases h with
  | none => exact nofun
  | some mark =>
    rintro _ ⟨⟩
    rcases mark with rfl | rfl <;> decide

/-- A text that starts with nothing of a kind starts with nothing of a narrower one. -/
lemma StartsNot.mono {kind' : Char → Prop} (h : StartsNot kind cs) (sub : ∀ c, kind' c → kind c) :
    StartsNot kind' cs :=
  fun c mem is => h c mem (sub c is)

/-- An optional fraction starts with a point or not at all. -/
lemma startsNot_fraction {places : Option (List Char)} (point : ¬ kind '.')
    (ends : StartsNot kind rest) : StartsNot kind (fraction places ++ rest) := by
  cases places with
  | none => exact ends
  | some places =>
    rintro _ ⟨⟩
    exact point

end Shape

end Numeral

namespace Decimal

open Numeral

variable {cs rest : List Char} {negative : Bool}

/-- The digits are read as the number that they stand for. -/
lemma ofDigits_eq_natural (cs : List Char) : ofDigits cs = natural cs :=
  ofDigits_eq cs

/-- A sign is read in front of what is no sign. -/
lemma readSign_append {sign : List Char} (h : Sign sign negative)
    (ends : StartsNot (fun c => c = '+' ∨ c = '-') rest) :
    readSign (sign ++ rest) = (negative, rest) := by
  cases h with
  | none =>
    cases rest with
    | nil => rfl
    | cons c rest =>
      have other := ends c rfl
      rw [List.nil_append, readSign]
      · exact fun _ same => other (.inr (List.cons.inj same).1)
      · exact fun _ same => other (.inl (List.cons.inj same).1)
  | plus => rfl
  | minus => rfl

/-- What is read as the sign is one, and stands in front. -/
lemma exists_sign (cs : List Char) : ∃ sign negative rest, readSign cs = (negative, rest) ∧
    cs = sign ++ rest ∧ Sign sign negative := by
  unfold readSign
  split
  · exact ⟨_, _, _, rfl, rfl, .minus⟩
  · exact ⟨_, _, _, rfl, rfl, .plus⟩
  · exact ⟨_, _, _, rfl, rfl, .none⟩

/-- The digits that are read are the longest run of them. -/
lemma readDigits_eq (cs : List Char) :
    readDigits cs = (cs.takeWhile Char.isDigit, cs.dropWhile Char.isDigit) :=
  List.span_eq_takeWhile_dropWhile _ _

/-- Digits are read in front of what is no digit. -/
lemma readDigits_append {digits : List Char} (all : AllDigits digits)
    (ends : StartsNot (fun c => c.isDigit = true) rest) :
    readDigits (digits ++ rest) = (digits, rest) := by
  have stays : rest.takeWhile Char.isDigit = [] ∧ rest.dropWhile Char.isDigit = rest := by
    cases rest with
    | nil => exact ⟨rfl, rfl⟩
    | cons c rest =>
      have other := ends c rfl
      exact ⟨List.takeWhile_cons_of_neg other, List.dropWhile_cons_of_neg other⟩
  rw [readDigits_eq, List.takeWhile_append_of_pos all, List.dropWhile_append_of_pos all, stays.1,
    stays.2, List.append_nil]

/-- What is read as digits is made of them, and stands in front. -/
lemma exists_digits (cs : List Char) : ∃ digits rest, readDigits cs = (digits, rest) ∧
    cs = digits ++ rest ∧ AllDigits digits :=
  ⟨_, _, readDigits_eq cs, (List.takeWhile_append_dropWhile ..).symm,
    fun _ mem => List.mem_takeWhile_imp mem⟩

/-- An optional fraction is read in front of what goes on with neither a point nor a digit. -/
lemma readFraction_append {places : Option (List Char)}
    (all : ∀ digits ∈ places, AllDigits digits)
    (ends : StartsNot (fun c => c = '.' ∨ c.isDigit = true) rest) :
    readFraction (fraction places ++ rest) = (places, rest) := by
  cases places with
  | none =>
    cases rest with
    | nil => rfl
    | cons c rest =>
      rw [fraction, List.nil_append, readFraction]
      exact fun _ same => ends c rfl (.inl (List.cons.inj same).1)
  | some places =>
    rw [fraction, List.cons_append, readFraction,
      readDigits_append (all places rfl) fun c mem digit => ends c mem (.inr digit)]

/-- What is read as a fraction is one, and stands in front. -/
lemma exists_fraction (cs : List Char) : ∃ places rest, readFraction cs = (places, rest) ∧
    cs = fraction places ++ rest ∧ ∀ digits ∈ places, AllDigits digits := by
  unfold readFraction
  split
  · rename_i behind
    obtain ⟨digits, rest, read, rfl, all⟩ := exists_digits behind
    refine ⟨some digits, rest, by rw [read], rfl, ?_⟩
    rintro _ ⟨⟩
    exact all
  · exact ⟨_, _, rfl, rfl, nofun⟩

/-- The digits of an exponent are an optional sign and digits. -/
lemma readExponentDigits_eq_some {e : Int} : readExponentDigits cs = some e ↔
    ∃ sign digits negative, cs = sign ++ digits ∧ Sign sign negative ∧ digits ≠ [] ∧
      AllDigits digits ∧ e = powerOfTen ofExponentDigits (some (negative, digits)) := by
  have filled_iff (digits : List Char) : ¬ (digits.isEmpty || !digits.all Char.isDigit) = true ↔
      digits ≠ [] ∧ AllDigits digits := by
    rw [Bool.or_eq_true, not_or, List.isEmpty_iff, Bool.not_eq_true', Bool.not_eq_false,
      List.all_eq_true]
    rfl
  constructor
  · intro read
    obtain ⟨sign, negative, digits, same, split, signed⟩ := exists_sign cs
    rw [readExponentDigits, same] at read
    obtain ⟨filled, read⟩ := Option.ite_none_left_eq_some.1 read
    obtain ⟨some, all⟩ := (filled_iff digits).1 filled
    exact ⟨sign, digits, negative, split, signed, some, all, (Option.some.inj read).symm⟩
  · rintro ⟨sign, digits, negative, rfl, signed, some, all, rfl⟩
    have ends : StartsNot (fun c => c = '+' ∨ c = '-') (digits ++ []) :=
      startsNot_sign_of_digits some all
    rw [List.append_nil] at ends
    rw [readExponentDigits, readSign_append signed ends]
    exact if_neg ((filled_iff digits).2 ⟨some, all⟩)

/-- What is left behind the significand is an exponent. -/
lemma readExponent_eq_some {read : Int × Bool} : readExponent cs = some read ↔
    ∃ power, Power cs power ∧ read = (powerOfTen ofExponentDigits power, power.isSome) := by
  cases cs with
  | nil =>
    constructor
    · rintro ⟨⟩
      exact ⟨none, .none, rfl⟩
    · rintro ⟨_, ⟨⟩, rfl⟩
      rfl
  | cons c rest =>
    rw [readExponent, Option.ite_none_right_eq_some, Option.map_eq_some_iff, Bool.or_eq_true,
      decide_eq_true_eq, decide_eq_true_eq]
    constructor
    · rintro ⟨mark, e, digits, rfl⟩
      obtain ⟨sign, digits, negative, rfl, signed, filled, all, rfl⟩ :=
        readExponentDigits_eq_some.1 digits
      exact ⟨_, .some mark signed filled all, rfl⟩
    · rintro ⟨_, ⟨⟩ | ⟨mark, signed, filled, all⟩, rfl⟩
      exact ⟨mark, _, readExponentDigits_eq_some.2 ⟨_, _, _, rfl, signed, filled, all, rfl⟩, rfl⟩

/-- A numeral is read part by part. -/
lemma read?_eq {a b c whole : List Char} {places : Option (List Char)}
    (sign : readSign cs = (negative, a)) (digits : readDigits a = (whole, b))
    (behind : readFraction b = (places, c)) :
    read? cs = if whole ++ places.getD [] = [] then none
      else (readExponent c).map fun read =>
        ⟨⟨negative, natural (whole ++ places.getD []), read.1 - (places.getD []).length⟩,
          places.isNone && !read.2⟩ := by
  have empty : (whole.isEmpty && (places.getD []).isEmpty) = true ↔ whole ++ places.getD [] = [] := by
    rw [Bool.and_eq_true, List.isEmpty_iff, List.isEmpty_iff, List.append_eq_nil_iff]
  simp only [read?, sign, digits, behind, empty, ofDigits_eq_natural]
  split
  · rfl
  · cases readExponent c <;> rfl

/-- A numeral is read if and only if it is spelled by the grammar, and as what its parts say. -/
theorem read?_eq_some_iff {numeral : Numeral} :
    read? cs = some numeral ↔ ∃ parts, Spells cs parts ∧ numeral = parts.numeral := by
  constructor
  · intro read
    obtain ⟨sign, negative, a, first, rfl, signed⟩ := exists_sign cs
    obtain ⟨whole, b, second, rfl, all⟩ := exists_digits a
    obtain ⟨places, c, third, rfl, behind⟩ := exists_fraction b
    rw [read?_eq first second third] at read
    obtain ⟨filled, read⟩ := Option.ite_none_left_eq_some.1 read
    obtain ⟨_, exponent, rfl⟩ := Option.map_eq_some_iff.1 read
    obtain ⟨power, powered, rfl⟩ := readExponent_eq_some.1 exponent
    refine ⟨⟨negative, whole, places, power⟩, ⟨sign, whole ++ fraction places, c, ?_, signed,
      significand_iff.2 ⟨rfl, all, behind, filled⟩, powered⟩, rfl⟩
    simp only [List.append_assoc]
  · rintro ⟨parts, ⟨sign, body, power, rfl, signed, significand, powered⟩, rfl⟩
    obtain ⟨rfl, all, behind, filled⟩ := significand_iff.1 significand
    -- each part ends where the next one starts with what it cannot have
    have digits_end : StartsNot (fun c => c.isDigit = true) (fraction parts.places ++ power) :=
      startsNot_fraction (by decide) (powered.starts.mono fun c digit => .inr (.inr (.inr digit)))
    have sign_ends : StartsNot (fun c => c = '+' ∨ c = '-')
        (parts.whole ++ (fraction parts.places ++ power)) := by
      by_cases whole : parts.whole = []
      · rw [whole]
        exact startsNot_fraction (by decide)
          (powered.starts.mono fun c sign => sign.imp_right .inl)
      · exact startsNot_sign_of_digits whole all
    have fraction_ends : StartsNot (fun c => c = '.' ∨ c.isDigit = true) power :=
      powered.starts.mono fun c other => .inr (.inr other)
    rw [List.append_assoc, List.append_assoc, read?_eq (readSign_append signed sign_ends)
      (readDigits_append all digits_end) (readFraction_append behind fraction_ends),
      if_neg filled, readExponent_eq_some.2 ⟨_, powered, rfl⟩]
    rfl

end Decimal

end Scriptlet
