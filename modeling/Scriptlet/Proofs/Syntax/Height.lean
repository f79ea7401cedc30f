import Scriptlet.Proofs.Syntax.Derivation
import Scriptlet.Proofs.Syntax.Levels
import Scriptlet.Proofs.Syntax.Printing

/-!
# How high trees are

What is derived has the shapes that the grammar gives to words (`Derivation.shapes`), and a tree with
these shapes has at most four edges for each level: from a piece to the arguments of its call, to one
of them, to a piece of that and, in a vector, to what it stands for.
-/

namespace Scriptlet

namespace Outline

variable {α : Type}

mutual

/-- How many edges the longest way down has. -/
def height : Outline α → Nat
  | node _ _ _ children => heightAll children

/-- How many edges the longest way down has from what the trees hang on. -/
def heightAll : List (Outline α) → Nat
  | [] => 0
  | tree :: trees => max (tree.height + 1) (heightAll trees)

end

end Outline

variable {α : Type}

/-- At most four edges lead from one level to the next. So many of the last four a word of this form
does not use. -/
def Word.spare : Word α → Nat
  | .literal _ _ | .vector _ _ => 4
  | .reference _ _ | .substitution _ _ _ => 5
  | .glued _ => 3

/-- No word leaves fewer than three edges. -/
lemma Word.spare_any (word : Word α) : 3 ≤ word.spare := by
  cases word <;> simp [spare]

/-- A single piece leaves four at least. -/
lemma Word.spare_single {word : Word α} (single : ¬ word.isGlued) : 4 ≤ word.spare := by
  cases word with
  | glued pieces => exact absurd rfl single
  | _ => simp [spare]

/-- So does a name. -/
lemma Word.spare_name {word : Word α} (name : word.isName) : 4 ≤ word.spare :=
  spare_single fun glued => by cases word <;> simp [isName, isGlued] at name glued

/-- The target of a vector expansion leaves five. -/
lemma Word.spare_target {word : Word α} (target : word.isTarget) : word.spare = 5 := by
  cases word <;> simp [isTarget, spare] at *

mutual

/-- A word is at most four times as high as the levels that it takes. -/
lemma Word.height_le : (word : Word α) → word.Shaped →
    word.outline.height + word.spare ≤ 4 * word.room
  | .literal _ _, _ => Nat.le_refl 4
  | .reference _ name, shaped => by
    have inner := name.height_le shaped.2
    have spare := Word.spare_name shaped.1
    simp only [outline, Outline.height, Outline.heightAll, room, Word.spare]
    omega
  | .substitution _ name args, shaped => by
    have named := name.height_le shaped.1
    have spare := name.spare_any
    have listed := Word.heightAll_le 3 args shaped.2 fun word _ => word.spare_any
    simp only [outline, Outline.height, Outline.heightAll, room, Word.spare]
    omega
  | .vector _ target, shaped => by
    have inner := target.height_le shaped.2
    have spare := Word.spare_target shaped.1
    simp only [outline, Outline.height, Outline.heightAll, room, Word.spare]
    omega
  | .glued [], shaped => absurd shaped.1 (by simp)
  | .glued (first :: rest), shaped => by
    obtain ⟨-, single, shaped⟩ := shaped
    have one := first.height_le shaped.1
    have spare := first.spare_any
    have inner := Word.heightAll_le 4 (first :: rest) shaped fun word mem =>
      spare_single (single word mem)
    simp only [outline, Outline.height, room, roomAll, Word.spare] at *
    omega

/-- Words are at most as high as four edges for each level, less what they all leave. -/
lemma Word.heightAll_le (spare : Nat) : (words : List (Word α)) → Word.AllShaped words →
    (∀ word ∈ words, spare ≤ word.spare) →
    Outline.heightAll (Word.outlines words) ≤ 4 * Word.roomAll words + 1 - spare
  | [], _, _ => Nat.zero_le _
  | word :: words, shaped, spares => by
    obtain ⟨first, rest⟩ := List.forall_mem_cons.1 spares
    have here := word.height_le shaped.1
    have later := Word.heightAll_le spare words shaped.2 rest
    simp only [outlines, Outline.heightAll, roomAll]
    omega

end

/-- The arguments of a call are a node of their own. -/
lemma Word.arguments_le {args : List (Word α)} (shaped : Word.AllShaped args) :
    (Outline.ofArguments args).height ≤ 4 * Word.roomAll args + 1 - 3 :=
  Word.heightAll_le 3 args shaped fun word _ => word.spare_any

mutual

/-- A statement is lower than four times the levels that it takes. -/
lemma Statement.height_lt : (s : Statement α) → s.Shaped → s.outline.height + 4 < 4 * s.room
  | .command name args, shaped => by
    have named := name.height_le shaped.1
    have spare := name.spare_any
    have listed := Word.arguments_le shaped.2
    simp only [outline, Outline.height, Outline.heightAll, room] at *
    omega
  | .control _ name args body, shaped => by
    have named := name.height_le shaped.1
    have spare := name.spare_any
    have listed := Word.arguments_le shaped.2.1
    have inner := body.height_lt shaped.2.2
    simp only [outline, Outline.height, Outline.heightAll, room] at *
    omega
  | .block _ body, shaped => by
    have inner := Statement.heightAll_lt body shaped
    simp only [outline, Outline.height, room]
    omega

/-- Statements are lower than four edges for each level by more than three. -/
lemma Statement.heightAll_lt : (body : List (Statement α)) → Statement.AllShaped body →
    Outline.heightAll (Statement.outlines body) + 3 < 4 * Statement.roomAll body
  | [], _ => by simp [outlines, Outline.heightAll, roomAll]
  | s :: body, shaped => by
    have here := s.height_lt shaped.1
    have later := Statement.heightAll_lt body shaped.2
    simp only [outlines, Outline.heightAll, roomAll]
    omega

end

/-- Words have their shapes if each of them has. -/
lemma Word.allShaped_iff {words : List (Word α)} :
    Word.AllShaped words ↔ ∀ word ∈ words, word.Shaped := by
  induction words with
  | nil => simp [Word.AllShaped]
  | cons word words ih => rw [Word.AllShaped, List.forall_mem_cons, ih]

/-- Statements have their shapes if each of them has. -/
lemma Statement.allShaped_iff {body : List (Statement α)} :
    Statement.AllShaped body ↔ ∀ s ∈ body, s.Shaped := by
  induction body with
  | nil => simp [Statement.AllShaped]
  | cons s body ih => rw [Statement.AllShaped, List.forall_mem_cons, ih]

namespace Grammar

/-- What is read where the symbol is derived has the shapes that the grammar gives to words. -/
def Symbol.Shapes : (symbol : Symbol) → symbol.Value → Prop
  | name, word => word.isName ∧ word.Shaped
  | callTail, call => call.1.Shaped ∧ Word.AllShaped call.2
  | piece, word | adjacentPiece, word => ¬ word.isGlued ∧ word.Shaped
  | argument, word => word.Shaped
  | parameters, args => Word.AllShaped (args.getD [])
  | statement, s | separated, s => s.Shaped
  | statements, body | script, body => Statement.AllShaped body
  | many symbol, values => ∀ value ∈ values, symbol.Shapes value

/-- What is derived has these shapes. -/
lemma Derivation.shapes {symbol : Symbol} (d : Derivation symbol) : symbol.Shapes d.tree := by
  induction d with
  | literal token => exact ⟨rfl, trivial⟩
  | substitution sigil tail ih => exact ⟨rfl, ih⟩
  | reference sigil name ih => exact ⟨rfl, ih⟩
  | callTail opener name args closer ihName ihArgs =>
    exact ⟨ihName, Word.allShaped_iff.2 ihArgs⟩
  | vectorCall sigil tail ih => exact ⟨nofun, rfl, ih⟩
  | vectorReference sigil name ih => exact ⟨nofun, rfl, ih⟩
  | plain name ih =>
    refine ⟨fun glued => ?_, ih.2⟩
    cases name <;> cases glued
  | adjacent piece ih => exact ih
  | argument first rest ihFirst ihRest =>
    show (glue first.tree rest.tree).Shaped
    rw [glue]
    cases pieces : rest.tree with
    | nil => exact ihFirst.2
    | cons word words =>
      rw [pieces] at ihRest
      have all : ∀ piece ∈ first.tree :: word :: words, ¬ piece.isGlued ∧ piece.Shaped :=
        List.forall_mem_cons.2 ⟨ihFirst, ihRest⟩
      exact ⟨by simp, fun piece mem => (all piece mem).1,
        Word.allShaped_iff.2 fun piece mem => (all piece mem).2⟩
  | noParameters => trivial
  | parameters opener args closer ih => exact Word.allShaped_iff.2 ih
  | block opener body closer ih => exact ih
  | control sigil name params body ihName ihParams ihBody => exact ⟨ihName, ihParams, ihBody⟩
  | command name args ihName ihArgs => exact ⟨ihName, Word.allShaped_iff.2 ihArgs⟩
  | separated separators statement ih => exact ih
  | statements body separators ih => exact Statement.allShaped_iff.2 ih
  | script body marker ih => exact ih
  | nil => exact fun _ none => absurd none List.not_mem_nil
  | cons first rest ihFirst ihRest => exact List.forall_mem_cons.2 ⟨ihFirst, ihRest⟩

end Grammar

end Scriptlet
