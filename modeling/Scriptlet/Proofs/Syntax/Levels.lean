import Mathlib.Tactic.Lemma
import Scriptlet.Syntax.Outline

/-!
# How deeply trees nest

Every statement, every piece of a word and every name behind a sigil stands on a level, one below
what it belongs to. The `room` of a tree is how many levels are looked into where it is read: those
of the tree and, at the end of every block and of the script, two more, on which another statement
and its first piece would be (`Statement.roomAll_le_iff`).
-/

namespace Scriptlet

variable {α : Type}

namespace Word

mutual

/-- The levels of the pieces and names in a word that stands on the given level. A vector and what it
stands for are one piece. -/
def levels (level : Nat) : Word α → List Nat
  | literal _ _ => [level]
  | reference _ name => level :: name.levels (level + 1)
  | substitution _ name args => level :: (name.levels (level + 1) ++ levelsAll (level + 1) args)
  | vector _ target => target.levels level
  | glued pieces => levelsAll level pieces

/-- The levels in words that stand on the given level. -/
def levelsAll (level : Nat) : List (Word α) → List Nat
  | [] => []
  | word :: words => word.levels level ++ levelsAll level words

end

mutual

/-- How many levels the word takes. -/
def room : Word α → Nat
  | literal _ _ => 1
  | reference _ name => name.room + 1
  | substitution _ name args => max name.room (roomAll args) + 1
  | vector _ target => target.room
  | glued pieces => roomAll pieces

/-- How many levels the words take. -/
def roomAll : List (Word α) → Nat
  | [] => 0
  | word :: words => max word.room (roomAll words)

end

mutual

/-- The room of a word is how far its levels reach. -/
lemma room_le_iff (level limit : Nat) :
    (word : Word α) → (level + word.room ≤ limit ↔
      level ≤ limit ∧ ∀ l ∈ word.levels (level + 1), l ≤ limit)
  | literal _ _ => by
    rw [room, levels, List.forall_mem_singleton]
    omega
  | reference _ name => by
    have inner := name.room_le_iff (level + 1) limit
    rw [room, levels, List.forall_mem_cons]
    grind
  | substitution _ name args => by
    have named := name.room_le_iff (level + 1) limit
    have listed := roomAll_le_iff (level + 1) limit args
    rw [room, levels, List.forall_mem_cons, List.forall_mem_append]
    grind
  | vector _ target => by
    rw [room, levels]
    exact target.room_le_iff level limit
  | glued pieces => by
    rw [room, levels]
    exact roomAll_le_iff level limit pieces

/-- Words that stand on a level have room below the limit if no level in them is above it. -/
lemma roomAll_le_iff (level limit : Nat) :
    (words : List (Word α)) → (level + roomAll words ≤ limit ↔
      level ≤ limit ∧ ∀ l ∈ levelsAll (level + 1) words, l ≤ limit)
  | [] => by simp [roomAll, levelsAll]
  | word :: words => by
    have first := word.room_le_iff level limit
    have rest := roomAll_le_iff level limit words
    rw [roomAll, levelsAll, List.forall_mem_append]
    grind

end

/-- Words have the room that each of them has. -/
lemma roomAll_le {words : List (Word α)} {limit : Nat} (all : ∀ word ∈ words, word.room ≤ limit) :
    roomAll words ≤ limit := by
  induction words with
  | nil => exact Nat.zero_le _
  | cons word words ih =>
    obtain ⟨first, rest⟩ := List.forall_mem_cons.1 all
    exact Nat.max_le.2 ⟨first, ih rest⟩

section Map

variable {β : Type} (f : α → β)

mutual

/-- The room does not depend on the annotations. -/
lemma room_map : (word : Word α) → (word.map f).room = word.room
  | literal _ _ => rfl
  | reference _ name => congrArg (· + 1) name.room_map
  | substitution _ name args => by rw [map, room, room, name.room_map, roomAll_map args]
  | vector _ target => target.room_map
  | glued pieces => roomAll_map pieces

/-- A map over the tokens keeps the room of words. -/
lemma roomAll_map : (words : List (Word α)) → roomAll (mapAll f words) = roomAll words
  | [] => rfl
  | word :: words => by rw [mapAll, roomAll, roomAll, word.room_map, roomAll_map words]

end

end Map

end Word

namespace Statement

mutual

/-- The levels of the statements, pieces and names in a statement that stands on the given level. -/
def levels (level : Nat) : Statement α → List Nat
  | command name args => level :: (name.levels (level + 1) ++ Word.levelsAll (level + 1) args)
  | control _ name args body =>
    level :: (name.levels (level + 1) ++ (Word.levelsAll (level + 1) args ++ body.levels (level + 1)))
  | block _ body => level :: levelsAll (level + 1) body

/-- The levels in statements that stand on the given level. -/
def levelsAll (level : Nat) : List (Statement α) → List Nat
  | [] => []
  | statement :: body => statement.levels level ++ levelsAll level body

end

mutual

/-- The levels of the blocks in a statement that stands on the given level. -/
def blocks (level : Nat) : Statement α → List Nat
  | command _ _ => []
  | control _ _ _ body => body.blocks (level + 1)
  | block _ body => level :: blocksAll (level + 1) body

/-- The levels of the blocks in statements that stand on the given level. -/
def blocksAll (level : Nat) : List (Statement α) → List Nat
  | [] => []
  | statement :: body => statement.blocks level ++ blocksAll level body

end

mutual

/-- How many levels are looked into where the statement is read. -/
def room : Statement α → Nat
  | command name args => max name.room (Word.roomAll args) + 1
  | control _ name args body => max (max name.room (Word.roomAll args)) body.room + 1
  | block _ body => roomAll body + 1

/-- How many levels are looked into where the statements are read. Where they end, another statement
is looked for, down to its first piece. -/
def roomAll : List (Statement α) → Nat
  | [] => 2
  | statement :: body => max statement.room (roomAll body)

end

mutual

/-- The room of a statement is how far its levels reach, and two levels for each of its blocks. -/
lemma room_le_iff (level limit : Nat) :
    (s : Statement α) → (level + s.room ≤ limit ↔
      level ≤ limit ∧ (∀ l ∈ s.levels (level + 1), l ≤ limit) ∧
        ∀ l ∈ s.blocks (level + 1), l + 2 ≤ limit)
  | command name args => by
    have named := name.room_le_iff (level + 1) limit
    have listed := Word.roomAll_le_iff (level + 1) limit args
    rw [room, levels, blocks, List.forall_mem_cons, List.forall_mem_append]
    grind
  | control _ name args body => by
    have named := name.room_le_iff (level + 1) limit
    have listed := Word.roomAll_le_iff (level + 1) limit args
    have inner := body.room_le_iff (level + 1) limit
    have each : level + (max (max name.room (Word.roomAll args)) body.room + 1) ≤ limit ↔
        level + 1 + name.room ≤ limit ∧ level + 1 + Word.roomAll args ≤ limit ∧
          level + 1 + body.room ≤ limit := by
      omega
    rw [room, levels, blocks, List.forall_mem_cons, List.forall_mem_append, List.forall_mem_append,
      each, named, listed, inner]
    grind
  | block _ body => by
    have inner := roomAll_le_iff (level + 1) limit body
    rw [room, levels, blocks, List.forall_mem_cons, List.forall_mem_cons]
    grind

/-- Statements that stand on a level have room below the limit if no level in them is above it, and
two levels are left behind the statements and in each block. -/
lemma roomAll_le_iff (level limit : Nat) :
    (body : List (Statement α)) → (level + roomAll body ≤ limit ↔
      level + 2 ≤ limit ∧ (∀ l ∈ levelsAll (level + 1) body, l ≤ limit) ∧
        ∀ l ∈ blocksAll (level + 1) body, l + 2 ≤ limit)
  | [] => by simp [roomAll, levelsAll, blocksAll]
  | s :: body => by
    have first := s.room_le_iff level limit
    have rest := roomAll_le_iff level limit body
    rw [roomAll, levelsAll, blocksAll, List.forall_mem_append, List.forall_mem_append]
    grind

end

section Map

variable {β : Type} (f : α → β)

mutual

/-- The room does not depend on the annotations. -/
lemma room_map : (s : Statement α) → (s.map f).room = s.room
  | command name args => by rw [map, room, room, name.room_map, Word.roomAll_map]
  | control _ name args body => by
    rw [map, room, room, name.room_map, Word.roomAll_map, body.room_map]
  | block _ body => congrArg (· + 1) (roomAll_map body)

/-- A map over the tokens keeps the room of statements. -/
lemma roomAll_map : (body : List (Statement α)) → roomAll (mapAll f body) = roomAll body
  | [] => rfl
  | s :: body => by rw [mapAll, roomAll, roomAll, s.room_map, roomAll_map body]

end

end Map

/-- Statements take two levels at least, where they end. -/
lemma two_le_roomAll (body : List (Statement α)) : 2 ≤ roomAll body := by
  induction body with
  | nil => exact Nat.le_refl 2
  | cons s body ih => exact Nat.le_trans ih (Nat.le_max_right _ _)

/-- Statements in two parts take what the larger part does. -/
lemma roomAll_append (first second : List (Statement α)) :
    roomAll (first ++ second) = max (roomAll first) (roomAll second) := by
  induction first with
  | nil => exact (Nat.max_eq_right (two_le_roomAll second)).symm
  | cons s first ih => rw [List.cons_append, roomAll, roomAll, ih, Nat.max_assoc]

/-- Statements have the room that each of them has, and two levels. -/
lemma roomAll_le {body : List (Statement α)} {limit : Nat} (two : 2 ≤ limit)
    (all : ∀ s ∈ body, s.room ≤ limit) : roomAll body ≤ limit := by
  induction body with
  | nil => exact two
  | cons s body ih =>
    obtain ⟨first, rest⟩ := List.forall_mem_cons.1 all
    exact Nat.max_le.2 ⟨first, ih rest⟩

end Statement

end Scriptlet
