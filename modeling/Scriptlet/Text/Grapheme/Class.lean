import Scriptlet.Text.Combining
import Scriptlet.Text.Grapheme.Conjunct
import Scriptlet.Text.Grapheme.Pictograph
import Scriptlet.Text.Grapheme.SpacingMark

/-!
# Classes of characters within a grapheme

What decides whether two neighbouring characters are seen as one: the Unicode property
`Grapheme_Cluster_Break`, made finer by `Extended_Pictographic` and `Indic_Conjunct_Break`. Every
character has one class.
-/

namespace Scriptlet.Text.Grapheme

/-- The part that a character plays among its neighbours. -/
inductive Class where
  | carriageReturn
  | lineFeed
  | control
  /-- A combining character that neither links consonants nor keeps them apart. -/
  | extend
  /-- A sign that links the consonants around it. -/
  | linker
  /-- The zero width non-joiner. -/
  | nonJoiner
  /-- The zero width joiner. -/
  | joiner
  | spacingMark
  /-- A sign that belongs to what follows it. -/
  | prepended
  /-- One of the letters that name a flag in pairs. -/
  | regional
  /-- A leading consonant of a syllable. -/
  | leading
  /-- A vowel of a syllable. -/
  | vowel
  /-- A trailing consonant of a syllable. -/
  | trailing
  /-- A syllable of a leading consonant and a vowel. -/
  | openSyllable
  /-- A syllable of a leading consonant, a vowel and a trailing consonant. -/
  | closedSyllable
  | pictograph
  /-- A consonant that forms conjuncts. -/
  | consonant
  | other
  deriving DecidableEq, Repr

/-- The code points that end a cluster and begin none, as closed ranges in rising order. -/
def controlRanges : List (Nat × Nat) :=
  [(0x0, 0x9), (0xB, 0xC), (0xE, 0x1F), (0x7F, 0x9F), (0xAD, 0xAD), (0x61C, 0x61C),
   (0x180E, 0x180E), (0x200B, 0x200B), (0x200E, 0x200F), (0x2028, 0x202E), (0x2060, 0x206F),
   (0xFEFF, 0xFEFF), (0xFFF0, 0xFFFB), (0x13430, 0x1343F), (0x1BCA0, 0x1BCA3), (0x1D173, 0x1D17A),
   (0xE0000, 0xE001F), (0xE0080, 0xE00FF), (0xE01F0, 0xE0FFF)]

/-- The code points that belong to what follows them, as closed ranges in rising order. -/
def prependedRanges : List (Nat × Nat) :=
  [(0x600, 0x605), (0x6DD, 0x6DD), (0x70F, 0x70F), (0x890, 0x891), (0x8E2, 0x8E2), (0xD4E, 0xD4E),
   (0x110BD, 0x110BD), (0x110CD, 0x110CD), (0x111C2, 0x111C3), (0x113D1, 0x113D1),
   (0x1193F, 0x1193F), (0x11941, 0x11941), (0x11A84, 0x11A89), (0x11D46, 0x11D46),
   (0x11F02, 0x11F02)]

/-- The letters that name a flag in pairs. -/
def regionalRanges : List (Nat × Nat) :=
  [(0x1F1E6, 0x1F1FF)]

/-- The signs that give a pictograph its colour of skin. -/
def modifierRanges : List (Nat × Nat) :=
  [(0x1F3FB, 0x1F3FF)]

/-- The leading consonants of syllables. -/
def leadingRanges : List (Nat × Nat) :=
  [(0x1100, 0x115F), (0xA960, 0xA97C)]

/-- The vowels of syllables. -/
def vowelRanges : List (Nat × Nat) :=
  [(0x1160, 0x11A7), (0xD7B0, 0xD7C6), (0x16D63, 0x16D63), (0x16D67, 0x16D6A)]

/-- The trailing consonants of syllables. -/
def trailingRanges : List (Nat × Nat) :=
  [(0x11A8, 0x11FF), (0xD7CB, 0xD7FB)]

/-- The composed syllables: for each leading consonant and vowel the open one, and then the closed
ones in the order of their 27 trailing consonants. -/
def syllableRanges : List (Nat × Nat) :=
  [(0xAC00, 0xD7A3)]

/-- The class of a code point that is not ASCII. -/
def Class.ofCodePoint (n : Nat) : Class :=
  if n = 0x200D then .joiner
  else if n = 0x200C then .nonJoiner
  else if inRanges linkerRanges n then .linker
  else if inRanges combiningRanges n || inRanges modifierRanges n then .extend
  else if inRanges spacingMarkRanges n then .spacingMark
  else if inRanges consonantRanges n then .consonant
  else if inRanges syllableRanges n then
    if (n - 0xAC00) % 28 = 0 then .openSyllable else .closedSyllable
  else if inRanges leadingRanges n then .leading
  else if inRanges vowelRanges n then .vowel
  else if inRanges trailingRanges n then .trailing
  else if inRanges regionalRanges n then .regional
  else if inRanges pictographRanges n then .pictograph
  else if inRanges controlRanges n then .control
  else if inRanges prependedRanges n then .prepended
  else .other

/-- The class of a character. -/
def Class.of (c : Char) : Class :=
  if c = '\r' then .carriageReturn
  else if c = '\n' then .lineFeed
  else if c.toNat < 0x20 then .control
  else if c.toNat < 0x7F then .other
  else .ofCodePoint c.toNat

/-- Whether the character stands alone, whatever is next to it. -/
def Class.isControl : Class → Bool
  | .carriageReturn | .lineFeed | .control => true
  | _ => false

/-- Whether the character may stand between a pictograph and a joiner. -/
def Class.isExtend : Class → Bool
  | .extend | .linker | .nonJoiner => true
  | _ => false

/-- Whether the character may stand between two consonants of a conjunct. -/
def Class.isConjunctSign : Class → Bool
  | .extend | .linker | .joiner => true
  | _ => false

/-- Whether the character always belongs to the one before it. -/
def Class.isMark : Class → Bool
  | .joiner | .spacingMark => true
  | c => c.isExtend

end Scriptlet.Text.Grapheme
