import Scriptlet.Proofs.Numeric.Reading

/-!
# The format is closed

A finite number is a number of the format if it has at most 53 significant binary digits and is below
the bound of the format. What is rounded is one, so every operation gives one, and so does reading and
every operation on numbers of scripts.
-/

namespace Scriptlet

namespace Binary64

/-- A number of the format, an infinity, or no number. -/
inductive InFormat : Binary64 → Prop where
  | nan : InFormat nan
  | infinite {negative : Bool} : InFormat (infinite negative)
  | finite {negative : Bool} {units : Nat} : Significant units → units < overflowUnits →
    InFormat (finite negative units)

variable {x y : Binary64}

/-- Both zeros are numbers of the format. -/
lemma InFormat.zero {negative : Bool} : InFormat (.finite negative 0) :=
  .finite (Nat.dvd_zero _) overflowUnits_pos

/-- Units with few enough significant digits give a number of the format, an infinity if there are
too many of them. -/
lemma ofUnits_inFormat {negative : Bool} {units : Nat} (significant : Significant units) :
    InFormat (ofUnits negative units) := by
  rw [ofUnits]
  split
  · rename_i small
    exact .finite significant small
  · exact .infinite

/-- What is rounded is a number of the format. -/
lemma ofRatio_inFormat {negative : Bool} {num den : Nat} (pos : 0 < den) :
    InFormat (ofRatio negative num den) := by
  rw [ofRatio]
  exact ofUnits_inFormat (significant_roundUnits num pos)

/-- The number nearest to something is a number of the format. -/
lemma NearestTo.inFormat {negative : Bool} {magnitude : ℚ} (h : x.NearestTo negative magnitude) :
    InFormat x := by
  obtain ⟨units, closest, same⟩ := h
  rw [same]
  exact ofUnits_inFormat closest.significant

/-- Rounding an integer gives a number of the format. -/
lemma ofInt_inFormat (n : Int) : InFormat (ofInt n) :=
  ofRatio_inFormat Nat.one_pos

namespace InFormat

/-- The format is closed under negation. -/
lemma neg (h : InFormat x) : InFormat x.neg := by
  cases h with
  | nan => exact .nan
  | infinite => exact .infinite
  | finite significant small => exact .finite significant small

/-- Sums are rounded into the format. -/
lemma add (hx : InFormat x) (hy : InFormat y) : InFormat (x.add y) := by
  cases hx with
  | nan => exact .nan
  | infinite =>
    cases hy with
    | nan => exact .nan
    | infinite =>
      rw [Binary64.add]
      split
      · exact .infinite
      · exact .nan
    | finite => exact .infinite
  | finite =>
    cases hy with
    | nan => exact .nan
    | infinite => exact .infinite
    | finite =>
      rw [Binary64.add]
      split
      · exact .zero
      · exact ofRatio_inFormat Nat.one_pos

/-- So are differences. -/
lemma sub (hx : InFormat x) (hy : InFormat y) : InFormat (x.sub y) :=
  hx.add hy.neg

/-- So are products. -/
lemma mul (hx : InFormat x) (hy : InFormat y) : InFormat (x.mul y) := by
  cases hx with
  | nan => exact .nan
  | infinite =>
    cases hy with
    | nan => exact .nan
    | infinite => exact .infinite
    | finite =>
      rw [Binary64.mul]
      split
      · exact .nan
      · exact .infinite
  | finite =>
    cases hy with
    | nan => exact .nan
    | infinite =>
      rw [Binary64.mul]
      split
      · exact .nan
      · exact .infinite
    | finite =>
      rw [Binary64.mul]
      exact ofRatio_inFormat unitsPerOne_pos

/-- So are quotients. -/
lemma div (hx : InFormat x) (hy : InFormat y) : InFormat (x.div y) := by
  cases hx with
  | nan => exact .nan
  | infinite =>
    cases hy with
    | nan => exact .nan
    | infinite => exact .nan
    | finite => exact .infinite
  | finite =>
    cases hy with
    | nan => exact .nan
    | infinite => exact .zero
    | finite =>
      rw [Binary64.div]
      split
      · split
        · exact .nan
        · exact .infinite
      · rename_i nonzero
        exact ofRatio_inFormat (Nat.pos_of_ne_zero nonzero)

/-- A remainder is exact, and has no more digits than the operands have. -/
lemma rem (hx : InFormat x) (hy : InFormat y) : InFormat (x.rem y) := by
  cases hx with
  | nan => exact .nan
  | infinite =>
    cases hy with
    | nan => exact .nan
    | infinite => exact .nan
    | finite => exact .nan
  | finite significant small =>
    cases hy with
    | nan => exact .nan
    | infinite => exact .finite significant small
    | finite =>
      rw [Binary64.rem]
      split
      · exact .nan
      · exact ofRatio_inFormat Nat.one_pos

/-- Rounding down gives a number of the format. -/
lemma floor (h : InFormat x) : InFormat x.floor := by
  cases h with
  | nan => exact .nan
  | infinite => exact .infinite
  | finite =>
    rw [Binary64.floor]
    exact ofRatio_inFormat Nat.one_pos

end InFormat

end Binary64

namespace Number

open Binary64 (InFormat)

variable {a b n : Number}

/-- The binary64 number that is nearest, which is the number itself if that is no integer, is a number
of the format. -/
def Sound (n : Number) : Prop :=
  InFormat n.toBinary64

/-- An integer is sound whatever its size, since it is rounded. -/
lemma sound_int (n : Int64) : Sound (int n) :=
  Binary64.ofInt_inFormat _

/-- An integer that fits is sound. -/
lemma ofInt?_sound {m : Int} (fits : ofInt? m = some n) : Sound n := by
  obtain ⟨_, rfl, -⟩ := ofInt?_eq_some.1 fits
  exact sound_int _

/-- What a text reads as is sound. -/
lemma read?_sound {s : String} (read : read? s = some n) : Sound n := by
  cases n with
  | int m => exact sound_int m
  | float x =>
    obtain ⟨-, parts, -, rfl⟩ := read?_eq_float_iff.1 read
    exact parts.read.toBinary64_nearest.inFormat

namespace Sound

/-- The conversion to an integer keeps numbers sound. -/
lemma toInt (n : Number) : Sound n.toInt :=
  sound_int _

/-- So does the conversion to a float. -/
lemma toFloat (h : Sound n) : Sound n.toFloat := h

/-- So does negation. -/
lemma neg (h : Sound n) : Sound n.neg := by
  cases n with
  | int m =>
    rw [Number.neg]
    cases fits : ofInt? (-m.toInt) with
    | none =>
      show InFormat (Binary64.ofInt m.toInt).neg
      exact (Binary64.ofInt_inFormat _).neg
    | some result => exact ofInt?_sound fits
  | float x => exact InFormat.neg h

/-- So does an operation that works on integers or, where that is not possible, on floats, as long
as the latter stays in the format. -/
lemma combine {exact : Int → Int → Int} {rounded : Binary64 → Binary64 → Binary64}
    (keeps : ∀ {x y : Binary64}, InFormat x → InFormat y → InFormat (rounded x y))
    (ha : Sound a) (hb : Sound b) : Sound (combine exact rounded a b) := by
  have falls_back : Sound (.float (rounded a.toBinary64 b.toBinary64)) := keeps ha hb
  cases a with
  | float => exact falls_back
  | int m =>
    cases b with
    | float => exact falls_back
    | int n =>
      rw [Number.combine]
      cases fits : ofInt? (exact m.toInt n.toInt) with
      | none => exact falls_back
      | some result => exact ofInt?_sound fits

/-- So does addition. -/
lemma add (ha : Sound a) (hb : Sound b) : Sound (a.add b) :=
  combine .add ha hb

/-- So does subtraction. -/
lemma sub (ha : Sound a) (hb : Sound b) : Sound (a.sub b) :=
  combine .sub ha hb

/-- So does multiplication. -/
lemma mul (ha : Sound a) (hb : Sound b) : Sound (a.mul b) :=
  combine .mul ha hb

/-- A quotient of sound numbers is sound. -/
lemma div (ha : Sound a) (hb : Sound b) (divides : a.div b = .ok n) : Sound n := by
  rw [Number.div] at divides
  split at divides
  · cases divides
  · cases divides
    exact InFormat.div ha hb

/-- So is a floored quotient. -/
lemma floorDiv (ha : Sound a) (hb : Sound b) (divides : a.floorDiv b = .ok n) : Sound n := by
  rw [Number.floorDiv] at divides
  split at divides
  · cases divides
  · cases divides
    exact combine (fun hx hy => (hx.div hy).floor) ha hb

/-- So is a remainder. -/
lemma modulo (ha : Sound a) (hb : Sound b) (divides : a.modulo b = .ok n) : Sound n := by
  rw [Number.modulo] at divides
  split at divides
  · cases divides
  · cases divides
    refine combine (fun hx hy => ?_) ha hb
    rw [floorRem]
    split
    · exact (hx.rem hy).add hy
    · exact hx.rem hy

end Sound

end Number

end Scriptlet
