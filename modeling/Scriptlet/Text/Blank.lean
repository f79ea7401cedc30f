/-!
# Blank characters and words

The characters that separate words, trimming a text at its ends, and the words of a text. Every
part of the library that speaks of blanks uses the one test `isBlank`.
-/

namespace Scriptlet.Text

/-- Membership in the Unicode property `White_Space`. -/
def isBlank (c : Char) : Bool :=
  let n := c.toNat
  (0x9 ≤ n && n ≤ 0xD) || n == 0x20 || n == 0x85 || n == 0xA0 || n == 0x1680 ||
    (0x2000 ≤ n && n ≤ 0x200A) || n == 0x2028 || n == 0x2029 || n == 0x202F || n == 0x205F ||
    n == 0x3000

/-- The characters without the blanks they start with. -/
def dropBlanks (cs : List Char) : List Char :=
  cs.dropWhile isBlank

/-- The characters without the blanks they end with. -/
def dropBlanksEnd (cs : List Char) : List Char :=
  (dropBlanks cs.reverse).reverse

/-- The text without the blanks at its start. -/
def trimStart (s : String) : String :=
  .ofList (dropBlanks s.toList)

/-- The text without the blanks at either end. -/
def trim (s : String) : String :=
  .ofList (dropBlanksEnd (dropBlanks s.toList))

/-- Whether the text holds nothing but blanks. -/
def isAllBlank (s : String) : Bool :=
  s.toList.all isBlank

/-- Adds a finished word in front of the words that follow it; an empty one is no word. -/
def addWord (word : List Char) (words : List (List Char)) : List (List Char) :=
  if word.isEmpty then words else word :: words

/-- Puts one character in front of a word in progress and the words behind it: a blank ends the
word, any other character joins it. -/
def extendWords (c : Char) (state : List Char × List (List Char)) :
    List Char × List (List Char) :=
  if isBlank c then ([], addWord state.1 state.2) else (c :: state.1, state.2)

/-- The maximal blank-free runs of the characters, in order. -/
def splitBlanks (cs : List Char) : List (List Char) :=
  let state := cs.foldr extendWords ([], [])
  addWord state.1 state.2

/-- The words of a text: its maximal runs of characters that are not blank. -/
def words (s : String) : List String :=
  (splitBlanks s.toList).map String.ofList

/-- The words in order, one space between each two. -/
def unwords (ws : List String) : String :=
  " ".intercalate ws

/-- The text behind the first word and the blanks that follow it, its inner spacing kept. -/
def dropWord (s : String) : String :=
  .ofList (dropBlanks ((dropBlanks s.toList).dropWhile fun c => !isBlank c))

end Scriptlet.Text
