import Scriptlet.Proofs.Rendering.Indented
import Scriptlet.Proofs.Shape.Documented

/-!
# Printed trees are faithful

Pieces of trees that look the same in either printed form are the same but for the tokens they carry,
and the indented form shows each piece on a line of its own.
-/

namespace Scriptlet

variable {α β : Type}

namespace Node

/-- The piece with every annotation replaced. -/
def map (f : α → β) : Node α → Node β
  | script body => .script (Statement.mapAll f body)
  | statement s => .statement (s.map f)
  | arguments args => .arguments (Word.mapAll f args)
  | word w => .word (w.map f)

/-- The piece without its annotations. -/
def bare (n : Node α) : Node Unit :=
  n.map fun _ => ()

end Node

open Outline

mutual

/-- The outline of a word is plain. -/
lemma Word.outline_plain (word : Word α) : word.outline.Plain := by
  match word with
  | .literal _ _ => exact ⟨by simp, fun _ => rfl, trivial⟩
  | .reference _ name => exact ⟨by simp, nofun, name.outline_plain, trivial⟩
  | .substitution _ name args =>
    exact ⟨by simp, nofun, name.outline_plain, ⟨by simp, nofun, Word.outlines_plain args⟩, trivial⟩
  | .vector _ target => exact ⟨by simp, nofun, target.outline_plain, trivial⟩
  | .glued pieces => exact ⟨by simp, nofun, Word.outlines_plain pieces⟩

/-- So are the outlines of several. -/
lemma Word.outlines_plain (words : List (Word α)) : PlainAll (Word.outlines words) := by
  match words with
  | [] => trivial
  | word :: words => exact ⟨word.outline_plain, Word.outlines_plain words⟩

end

/-- So is the outline of arguments. -/
lemma Outline.ofArguments_plain (args : List (Word α)) : (ofArguments args).Plain :=
  ⟨by simp, nofun, Word.outlines_plain args⟩

mutual

/-- So is the outline of a statement. -/
lemma Statement.outline_plain (statement : Statement α) : statement.outline.Plain := by
  match statement with
  | .command name args =>
    exact ⟨by simp, nofun, name.outline_plain, ofArguments_plain args, trivial⟩
  | .control _ name args body =>
    exact ⟨by simp, nofun, name.outline_plain, ofArguments_plain args, body.outline_plain, trivial⟩
  | .block _ body => exact ⟨by simp, nofun, Statement.outlines_plain body⟩

/-- So are the outlines of several. -/
lemma Statement.outlines_plain (body : List (Statement α)) :
    PlainAll (Statement.outlines body) := by
  match body with
  | [] => trivial
  | statement :: body => exact ⟨statement.outline_plain, Statement.outlines_plain body⟩

end

/-- So is the outline of a node. -/
lemma Node.outline_plain (n : Node α) : n.outline.Plain := by
  cases n with
  | script body => exact ⟨by simp, nofun, Statement.outlines_plain body⟩
  | statement s => exact s.outline_plain
  | arguments args => exact ofArguments_plain args
  | word w => exact w.outline_plain

mutual

/-- Words with the same outline are the same. -/
lemma Word.map_of_strip (word : Word α) (word' : Word β)
    (same : word.outline.strip = word'.outline.strip) :
    word.map (fun _ => ()) = word'.map fun _ => () := by
  -- along the first word: the kind of its node tells the other's form
  match word with
  | .literal _ content =>
    cases word' with
    | literal _ content' =>
      obtain rfl : content = content' := by simpa [Word.outline, strip, stripAll] using same
      rfl
    | reference | substitution | vector | glued => cases same
  | .reference _ name =>
    cases word' with
    | reference _ name' =>
      have names : name.outline.strip = name'.outline.strip := by
        simpa [Word.outline, strip, stripAll] using same
      rw [Word.map, Word.map, name.map_of_strip name' names]
    | literal | substitution | vector | glued => cases same
  | .substitution _ name args =>
    cases word' with
    | substitution _ name' args' =>
      obtain ⟨names, lists⟩ : name.outline.strip = name'.outline.strip ∧
          stripAll (Word.outlines args) = stripAll (Word.outlines args') := by
        simpa [Word.outline, strip, stripAll] using same
      rw [Word.map, Word.map, name.map_of_strip name' names, Word.mapAll_of_strip args args' lists]
    | literal | reference | vector | glued => cases same
  | .vector _ target =>
    cases word' with
    | vector _ target' =>
      have targets : target.outline.strip = target'.outline.strip := by
        simpa [Word.outline, strip, stripAll] using same
      rw [Word.map, Word.map, target.map_of_strip target' targets]
    | literal | reference | substitution | glued => cases same
  | .glued pieces =>
    cases word' with
    | glued pieces' =>
      have lists : stripAll (Word.outlines pieces) = stripAll (Word.outlines pieces') := by
        simpa [Word.outline, strip, stripAll] using same
      rw [Word.map, Word.map, Word.mapAll_of_strip pieces pieces' lists]
    | literal | reference | substitution | vector => cases same

/-- Words whose outlines differ only in their origins differ only in their tokens. -/
lemma Word.mapAll_of_strip (words : List (Word α)) (words' : List (Word β))
    (same : stripAll (Word.outlines words) = stripAll (Word.outlines words')) :
    Word.mapAll (fun _ => ()) words = Word.mapAll (fun _ => ()) words' := by
  match words, words' with
  | [], [] => rfl
  | [], _ :: _ | _ :: _, [] => cases same
  | word :: words, word' :: words' =>
    obtain ⟨first, rest⟩ := List.cons.inj same
    rw [Word.mapAll, Word.mapAll, word.map_of_strip word' first,
      Word.mapAll_of_strip words words' rest]

end

mutual

/-- Statements with the same outline are the same. -/
lemma Statement.map_of_strip (s : Statement α) (s' : Statement β)
    (same : s.outline.strip = s'.outline.strip) :
    s.map (fun _ => ()) = s'.map fun _ => () := by
  match s with
  | .command name args =>
    cases s' with
    | command name' args' =>
      obtain ⟨names, lists⟩ : name.outline.strip = name'.outline.strip ∧
          stripAll (Word.outlines args) = stripAll (Word.outlines args') := by
        simpa [Statement.outline, ofArguments, strip, stripAll] using same
      rw [Statement.map, Statement.map, name.map_of_strip name' names,
        Word.mapAll_of_strip args args' lists]
    | control | block => cases same
  | .control _ name args body =>
    cases s' with
    | control _ name' args' body' =>
      obtain ⟨names, lists, bodies⟩ : name.outline.strip = name'.outline.strip ∧
          stripAll (Word.outlines args) = stripAll (Word.outlines args') ∧
          body.outline.strip = body'.outline.strip := by
        simpa [Statement.outline, ofArguments, strip, stripAll] using same
      rw [Statement.map, Statement.map, name.map_of_strip name' names,
        Word.mapAll_of_strip args args' lists, body.map_of_strip body' bodies]
    | command | block => cases same
  | .block _ body =>
    cases s' with
    | block _ body' =>
      have bodies : stripAll (Statement.outlines body) = stripAll (Statement.outlines body') := by
        simpa [Statement.outline, strip, stripAll] using same
      rw [Statement.map, Statement.map, Statement.mapAll_of_strip body body' bodies]
    | command | control => cases same

/-- So do statements. -/
lemma Statement.mapAll_of_strip (body : List (Statement α)) (body' : List (Statement β))
    (same : stripAll (Statement.outlines body) = stripAll (Statement.outlines body')) :
    Statement.mapAll (fun _ => ()) body = Statement.mapAll (fun _ => ()) body' := by
  match body, body' with
  | [], [] => rfl
  | [], _ :: _ | _ :: _, [] => cases same
  | s :: body, s' :: body' =>
    obtain ⟨first, rest⟩ := List.cons.inj same
    rw [Statement.mapAll, Statement.mapAll, s.map_of_strip s' first,
      Statement.mapAll_of_strip body body' rest]

end

namespace Node

/-- Pieces with the same outline are the same. -/
lemma bare_of_strip (n : Node α) (m : Node β) (same : n.outline.strip = m.outline.strip) :
    n.bare = m.bare := by
  cases n with
  | script body =>
    cases m with
    | script body' =>
      have bodies : stripAll (Statement.outlines body) = stripAll (Statement.outlines body') := by
        simpa [Node.outline, strip] using same
      exact congrArg Node.script (Statement.mapAll_of_strip body body' bodies)
    | statement s => cases s <;> cases same
    | arguments => cases same
    | word w => cases w <;> cases same
  | statement s =>
    cases m with
    | statement s' => exact congrArg Node.statement (s.map_of_strip s' same)
    | script | arguments => cases s <;> cases same
    | word w => cases s <;> cases w <;> cases same
  | arguments args =>
    cases m with
    | arguments args' =>
      have lists : stripAll (Word.outlines args) = stripAll (Word.outlines args') := by
        simpa [Node.outline, ofArguments, strip] using same
      exact congrArg Node.arguments (Word.mapAll_of_strip args args' lists)
    | script => cases same
    | statement s => cases s <;> cases same
    | word w => cases w <;> cases same
  | word w =>
    cases m with
    | word w' => exact congrArg Node.word (w.map_of_strip w' same)
    | script | arguments => cases w <;> cases same
    | statement s => cases w <;> cases s <;> cases same

/-- The pieces beneath a piece are beneath it in its outline. -/
lemma outline_children (n : Node Token) : n.outline.children = n.children.map outline := by
  match n with
  | script body | statement (.block _ body) =>
    rw [children, List.map_map]
    exact Statement.outlines_eq body
  | arguments args | word (.glued args) =>
    rw [children, List.map_map]
    exact Word.outlines_eq args
  | statement (.command _ _) | statement (.control _ _ _ _) => rfl
  | word (.literal _ _) | word (.reference _ _) | word (.substitution _ _ _)
  | word (.vector _ _) => rfl

/-- The outline of a descendant is the descendant of the outline. -/
lemma outline_at? (path : List Nat) (n : Node Token) :
    n.outline.at? path = (n.at? path).map outline := by
  induction path generalizing n with
  | nil => rfl
  | cons i path ih =>
    rw [Outline.at?, Node.at?, outline_children, List.getElem?_map]
    cases n.children[i]? with
    | none => rfl
    | some child => exact ih child

/-- The printed forms of pieces of trees are faithful. Two pieces with the same one-line form, or with
the same indented form, are the same but for the tokens they carry. The indented form has a line for
each path that leads to a piece beneath, in lexicographic order, which is pre-order; each line shows
the piece behind four blanks for each step of its path. -/
theorem renderings_are_faithful (n m : Node Token) :
    (n.outline.debug = m.outline.debug ∨ n.outline.pretty = m.outline.pretty → n.bare = m.bare) ∧
    ∃ paths lines, n.outline.pretty.toList.splitOn '\n' = lines ++ [[]] ∧
      paths.Pairwise (· < ·) ∧ (∀ path, path ∈ paths ↔ (n.at? path).isSome) ∧
      List.Forall₂ (fun path line => ∃ piece, n.at? path = some piece ∧
        line = List.replicate (4 * path.length) ' ' ++ piece.outline.heading) paths lines := by
  constructor
  · rintro (same | same)
    · have forms : n.outline.debug.toList ++ [] = m.outline.debug.toList ++ [] := by rw [same]
      exact bare_of_strip n m (debug_append_inj _ _ n.outline_plain m.outline_plain forms).1
    · exact bare_of_strip n m (pretty_inj same)
  · refine ⟨n.outline.paths, _, n.outline.pretty_lines, n.outline.paths_sorted, ?_, ?_⟩
    · intro path
      rw [mem_paths, outline_at?, Option.isSome_map]
    · refine List.forall₂_map_right_iff.2 ((n.outline.preorder_paths 0).imp ?_)
      rintro path ⟨depth, tree⟩ ⟨deep, leads⟩
      rw [outline_at?, Option.map_eq_some_iff] at leads
      obtain ⟨piece, leads, rfl⟩ := leads
      refine ⟨piece, leads, ?_⟩
      rw [line_toList, deep, Nat.zero_add]

/-- With quotes and without them, a literal looks the same: the two scripts differ only in their
tokens. -/
theorem quoted_looks_bare :
    ∃ quoted bare, Script.parse {} 128 "p \"a,b\"" = .ok quoted ∧
      Script.parse {} 128 "p  a,b" = .ok bare ∧
      quoted.root.outline.debug = bare.root.outline.debug ∧ quoted.root.bare = bare.root.bare := by
  have looks (name arg name' arg' : Token) :
      (script [.command (.literal name "p") [.literal arg "a,b"]]).outline.debug =
        (script [.command (.literal name' "p") [.literal arg' "a,b"]]).outline.debug := by
    simp only [outline, Statement.outlines, Statement.outline, Word.outline, ofArguments,
      Word.outlines, debug, debugAll]
  refine ⟨_, _, rfl, rfl, looks .., ?_⟩
  exact (renderings_are_faithful _ _).1 (.inl (looks ..))

end Node

end Scriptlet
