import Scriptlet.Syntax.Basic

/-!
# Printing trees

The canonical text of a tree. Every literal is quoted, and the two characters that end or bend a
quoted text are escaped in it; nothing else in the text depends on what the literals hold. The
parser yields trees that are `Shaped`.
-/

namespace Scriptlet

/-- The characters with a backslash in front of every double quote and every backslash. -/
def escape : List Char → List Char
  | [] => []
  | c :: cs => if c = '"' ∨ c = '\\' then '\\' :: c :: escape cs else c :: escape cs

namespace Word

variable {α : Type}

mutual

/-- The text of a word. -/
@[simp]
def print : Word α → List Char
  | literal _ content => '"' :: (escape content.toList ++ ['"'])
  | reference _ name => '$' :: name.print
  | substitution _ name args => '$' :: '(' :: (name.print ++ printBehind args ++ [')'])
  | vector _ (reference _ name) => '$' :: '^' :: name.print
  | vector _ (substitution _ name args) =>
    '$' :: '^' :: '(' :: (name.print ++ printBehind args ++ [')'])
  | vector _ target => '$' :: '^' :: target.print
  | glued pieces => printGlued pieces

/-- The texts of words, with a space in front of each. -/
def printBehind : List (Word α) → List Char
  | [] => []
  | word :: words => ' ' :: (word.print ++ printBehind words)

/-- The texts of words with nothing between them. -/
def printGlued : List (Word α) → List Char
  | [] => []
  | word :: words => word.print ++ printGlued words

end

/-- The texts of words, with a space between each two. -/
def printAll : List (Word α) → List Char
  | [] => []
  | word :: words => word.print ++ printBehind words

/-- Whether the word may name a variable. -/
def isName : Word α → Bool
  | literal _ _ | reference _ _ | substitution _ _ _ => true
  | vector _ _ | glued _ => false

/-- Whether a vector may stand for the words of this word. -/
def isTarget : Word α → Bool
  | reference _ _ | substitution _ _ _ => true
  | literal _ _ | vector _ _ | glued _ => false

mutual

/-- The word has a shape that the grammar gives to words: variables are named by single pieces,
vectors stand for variables or substitutions, and at least two single pieces are put together. -/
def Shaped : Word α → Prop
  | literal _ _ => True
  | reference _ name => name.isName ∧ name.Shaped
  | substitution _ name args => name.Shaped ∧ AllShaped args
  | vector _ target => target.isTarget ∧ target.Shaped
  | glued pieces => 2 ≤ pieces.length ∧ (∀ piece ∈ pieces, ¬ piece.isGlued) ∧ AllShaped pieces

/-- Every one of the words has such a shape. -/
def AllShaped : List (Word α) → Prop
  | [] => True
  | word :: words => word.Shaped ∧ AllShaped words

end

end Word

namespace Statement

variable {α : Type}

mutual

/-- The text of a statement. -/
def print : Statement α → List Char
  | command name args => Word.printAll (name :: args)
  | control _ name args body =>
    '!' :: (name.print ++ '(' :: (Word.printAll args ++ ')' :: ' ' :: body.print))
  | block _ body => '\x7b' :: (printAll body ++ ['\x7d'])

/-- The texts of statements, with a semicolon between each two. -/
def printAll : List (Statement α) → List Char
  | [] => []
  | statement :: body => statement.print ++ printBehind body

/-- The texts of statements, with a semicolon in front of each. -/
def printBehind : List (Statement α) → List Char
  | [] => []
  | statement :: body => ';' :: (statement.print ++ printBehind body)

end

mutual

/-- The words of the statement have the shapes that the grammar gives to words. -/
def Shaped : Statement α → Prop
  | command name args => name.Shaped ∧ Word.AllShaped args
  | control _ name args body => name.Shaped ∧ Word.AllShaped args ∧ body.Shaped
  | block _ body => AllShaped body

/-- So have the words of every one of the statements. -/
def AllShaped : List (Statement α) → Prop
  | [] => True
  | statement :: body => statement.Shaped ∧ AllShaped body

end

end Statement

end Scriptlet
