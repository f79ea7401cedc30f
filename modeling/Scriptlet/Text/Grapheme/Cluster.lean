import Scriptlet.Text.Grapheme.Class

/-!
# Graphemes

A text cut into what a reader takes for single characters: the extended grapheme clusters of
Unicode. Each rule for a joint looks at the next character and back into the cluster that it might
join.
-/

namespace Scriptlet.Text.Grapheme

/-- Whether the next character goes on with the syllable that the last one is part of. -/
def continuesSyllable : (last next : Class) → Bool
  | .leading, .leading | .leading, .vowel | .leading, .openSyllable | .leading, .closedSyllable
  | .openSyllable, .vowel | .openSyllable, .trailing | .vowel, .vowel | .vowel, .trailing
  | .closedSyllable, .trailing | .trailing, .trailing => true
  | _, _ => false

/-- Whether a cluster, given from its end, ends with a consonant and signs behind it that link it
to another one. -/
def endsLinked (cluster : List Class) : Bool :=
  (cluster.takeWhile Class.isConjunctSign).contains .linker &&
    (cluster.dropWhile Class.isConjunctSign).head? == some .consonant

/-- Whether a cluster, given from its end, ends with a pictograph and a joiner. -/
def endsJoined : List Class → Bool
  | .joiner :: cluster => (cluster.dropWhile Class.isExtend).head? == some .pictograph
  | _ => false

/-- Whether a cluster, given from its end, ends with the first half of a flag. -/
def endsInHalfFlag (cluster : List Class) : Bool :=
  (cluster.takeWhile (· == .regional)).length % 2 == 1

/-- Whether the next character joins a cluster, which is given from its end. -/
def joins : (cluster : List Class) → (next : Class) → Bool
  | [], _ => false
  | .carriageReturn :: _, .lineFeed => true
  | last :: before, next =>
    !last.isControl && !next.isControl &&
      (next.isMark || last == .prepended || continuesSyllable last next ||
        (next == .consonant && endsLinked (last :: before)) ||
        (next == .pictograph && endsJoined (last :: before)) ||
        (next == .regional && endsInHalfFlag (last :: before)))

/-- A text being cut: the clusters that are done and the one that is open, all from their ends. -/
structure Cut where
  done : List (List Char)
  openChars : List Char
  openClasses : List Class

namespace Cut

/-- Nothing is read yet. -/
def start : Cut := ⟨[], [], []⟩

/-- The clusters, the open one among them, from the last to the first. -/
def close (cut : Cut) : List (List Char) :=
  if cut.openChars.isEmpty then cut.done else cut.openChars.reverse :: cut.done

/-- Reads a character into the open cluster, or into a new one. -/
def push (cut : Cut) (c : Char) : Cut :=
  let next := Class.of c
  if joins cut.openClasses next then
    { cut with openChars := c :: cut.openChars, openClasses := next :: cut.openClasses }
  else ⟨cut.close, [c], [next]⟩

end Cut

/-- The grapheme clusters of a text. -/
def clusters (text : List Char) : List (List Char) :=
  (text.foldl Cut.push .start).close.reverse

end Scriptlet.Text.Grapheme
