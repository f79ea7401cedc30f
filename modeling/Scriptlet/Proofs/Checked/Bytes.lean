import Mathlib.Data.List.TakeWhile
import Mathlib.Data.String.Basic

/-!
# Texts cut at byte positions

A text in memory is addressed by bytes. It can be cut between two characters, and neither inside a
character nor behind the end: each cut has a value only where it can be made.
-/

namespace Scriptlet.Bytes

open String (utf8Len)

/-- The first so many bytes of the text, and the text behind them. -/
def cut? : Nat → List Char → Option (List Char × List Char)
  | 0, text => some ([], text)
  | _ + 1, [] => none
  | bytes + 1, c :: text =>
    if c.utf8Size ≤ bytes + 1 then
      (cut? (bytes + 1 - c.utf8Size) text).map fun (front, rest) => (c :: front, rest)
    else none

/-- The first so many bytes of the text. -/
def ahead? (bytes : Nat) (text : List Char) : Option (List Char) :=
  (cut? bytes text).map Prod.fst

/-- The text behind its first so many bytes. -/
def behind? (bytes : Nat) (text : List Char) : Option (List Char) :=
  (cut? bytes text).map Prod.snd

/-- The text between two bytes. -/
def between? (start stop : Nat) (text : List Char) : Option (List Char) :=
  if start ≤ stop then behind? start text >>= ahead? (stop - start) else none

/-- The byte with which the first character starts that passes the test. -/
def find? (p : Char → Bool) (text : List Char) : Option Nat :=
  if text.any p then some (utf8Len (text.takeWhile fun c => !p c)) else none

variable {bytes : Nat} {text front rest : List Char}

/-- A text is cut where its characters meet. -/
lemma cut?_append (front rest : List Char) :
    cut? (utf8Len front) (front ++ rest) = some (front, rest) := by
  induction front with
  | nil => simp [cut?]
  | cons c front ih =>
    obtain ⟨size, here⟩ : ∃ size, utf8Len (c :: front) = size + 1 :=
      Nat.exists_eq_add_one.2 (by rw [String.utf8Len_cons]; have := c.utf8Size_pos; omega)
    have left : size + 1 - c.utf8Size = utf8Len front := by
      rw [← here, String.utf8Len_cons, Nat.add_sub_cancel]
    have fits : c.utf8Size ≤ size + 1 := by
      rw [← here, String.utf8Len_cons]
      exact Nat.le_add_left ..
    rw [here, List.cons_append, cut?, if_pos fits, left, ih]
    rfl

/-- A text is cut nowhere else. -/
lemma eq_of_cut? (cut : cut? bytes text = some (front, rest)) :
    text = front ++ rest ∧ utf8Len front = bytes := by
  fun_induction cut? bytes text generalizing front with
  | case1 => cases cut; exact ⟨rfl, rfl⟩
  | case2 => cases cut
  | case3 bytes c text fits ih =>
    obtain ⟨⟨front, rest⟩, inner, same⟩ := Option.map_eq_some_iff.1 cut
    cases same
    obtain ⟨rfl, size⟩ := ih inner
    refine ⟨rfl, ?_⟩
    rw [String.utf8Len_cons, size]
    exact Nat.sub_add_cancel fits
  | case4 => cases cut

/-- The positions where a text can be cut are the valid ones of the string. -/
lemma isSome_cut? : (cut? bytes text).isSome ↔ String.Pos.Raw.IsValid (.ofList text) ⟨bytes⟩ := by
  rw [String.Pos.Raw.isValid_ofList]
  constructor
  · intro cuttable
    obtain ⟨⟨front, rest⟩, cut⟩ := Option.isSome_iff_exists.1 cuttable
    obtain ⟨rfl, rfl⟩ := eq_of_cut? cut
    exact ⟨front.length, by rw [List.take_left, String.utf8ByteSize_ofList]⟩
  · rintro ⟨count, here⟩
    obtain rfl : bytes = utf8Len (text.take count) := here.trans (String.utf8ByteSize_ofList _)
    have cut := cut?_append (text.take count) (text.drop count)
    rw [List.take_append_drop] at cut
    rw [cut]
    rfl

/-- A cut behind whole characters leaves these characters in front of it. -/
@[simp]
lemma ahead?_append (front rest : List Char) :
    ahead? (utf8Len front) (front ++ rest) = some front := by
  rw [ahead?, cut?_append]
  rfl

/-- A cut behind whole characters leaves the others behind it. -/
@[simp]
lemma behind?_append (front rest : List Char) :
    behind? (utf8Len front) (front ++ rest) = some rest := by
  rw [behind?, cut?_append]
  rfl

/-- Two cuts behind whole characters leave what is between them. -/
@[simp]
lemma between?_append (front middle rest : List Char) :
    between? (utf8Len front) (utf8Len front + utf8Len middle) (front ++ (middle ++ rest)) =
      some middle := by
  rw [between?, if_pos (Nat.le_add_right ..), behind?_append, Nat.add_sub_cancel_left]
  exact ahead?_append middle rest

/-- What is found can be cut off. -/
lemma behind?_find? {p : Char → Bool} {start : Nat} (found : find? p text = some start) :
    behind? start text = some (text.dropWhile fun c => !p c) := by
  obtain ⟨-, same⟩ := Option.ite_none_right_eq_some.1 found
  cases same
  have cut := behind?_append (text.takeWhile fun c => !p c) (text.dropWhile fun c => !p c)
  rwa [List.takeWhile_append_dropWhile] at cut

/-- Where a character is not found, nothing is left to start with it. -/
lemma dropWhile_of_find?_eq_none {p : Char → Bool} (missing : find? p text = none) :
    (text.dropWhile fun c => !p c) = [] := by
  have never : ¬ text.any p := by simpa [find?] using missing
  rw [List.dropWhile_eq_nil_iff]
  simpa using never

end Scriptlet.Bytes
