import Scriptlet.Text.Grapheme.Cluster

/-!
# Backspaces

What is left of a line that was typed with corrections: each backspace takes back the grapheme
before it. The length of a grapheme is kept in one byte, so of one that takes up 256 bytes or more
only the remainder is taken back.
-/

namespace Scriptlet.Text

/-- The character that takes back the one before it. -/
def backspace : Char := '\x08'

/-- How many bytes the characters take up in UTF-8. -/
def byteCount : List Char → Nat
  | [] => 0
  | c :: cs => c.utf8Size + byteCount cs

/-- Removes characters from the start until they make up a number of bytes. -/
def dropBytes : (bytes : Nat) → List Char → List Char
  | 0, cs => cs
  | _, [] => []
  | bytes + 1, c :: cs => dropBytes (bytes + 1 - c.utf8Size) cs

/-- What was typed so far: its characters, and the lengths of the graphemes that can be taken back,
both from the last to the first. -/
structure Typed where
  chars : List Char
  lengths : List UInt8

namespace Typed

/-- Nothing is typed yet. -/
def empty : Typed := ⟨[], []⟩

/-- Takes back the last grapheme, if there is one. -/
def undo (typed : Typed) : Typed :=
  match typed.lengths with
  | [] => typed
  | length :: lengths => ⟨dropBytes length.toNat typed.chars, lengths⟩

/-- Types a grapheme, or takes one back. -/
def press (typed : Typed) (grapheme : List Char) : Typed :=
  if grapheme = [backspace] then typed.undo
  else ⟨grapheme.reverse ++ typed.chars, .ofNat (byteCount grapheme) :: typed.lengths⟩

end Typed

/-- The characters that are left when every backspace has taken back the grapheme before it. -/
def applyBackspaces (text : List Char) : List Char :=
  ((Grapheme.clusters text).foldl Typed.press .empty).chars.reverse

end Scriptlet.Text
