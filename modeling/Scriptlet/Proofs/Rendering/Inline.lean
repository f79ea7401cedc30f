import Scriptlet.Proofs.Text.Quoting
import Scriptlet.Syntax.Outline

/-!
# The one-line form of a tree

The one-line form says where it ends: behind the name of its kind a node has a quoted content or a
list of nodes, and no list goes on behind its bracket. So a tree can be told from its one-line form,
but for its annotations (`Outline.debug_append_inj`).
-/

namespace Scriptlet

open Text (append_inj_of_all quoted_append_inj)

/-- The name of a kind is made of letters. -/
lemma NodeKind.name_alpha (kind : NodeKind) : ∀ c ∈ kind.name.toList, c.isAlpha :=
  List.all_eq_true.1 (by cases kind <;> rfl)

/-- The name of a kind is not empty. -/
lemma NodeKind.name_head (kind : NodeKind) :
    ∃ c letters, kind.name.toList = c :: letters ∧ c.isAlpha := by
  cases named : kind.name.toList with
  | nil => cases kind <;> cases named
  | cons c letters => exact ⟨c, letters, rfl, kind.name_alpha c (by simp [named])⟩

/-- Kinds have different names. -/
lemma NodeKind.name_injective {kind kind' : NodeKind} (same : kind.name = kind'.name) :
    kind = kind' := by
  cases kind <;> cases kind' <;> first | rfl | exact absurd same (by decide)

/-- The name of a kind ends in front of everything but letters. -/
lemma NodeKind.name_append_inj {kind kind' : NodeKind} {u v : List Char}
    (stops : ∀ c ∈ u.head?, c.isAlpha = false) (stops' : ∀ c ∈ v.head?, c.isAlpha = false)
    (same : kind.name.toList ++ u = kind'.name.toList ++ v) : kind = kind' ∧ u = v := by
  obtain ⟨names, behind⟩ := append_inj_of_all kind.name_alpha kind'.name_alpha stops stops' same
  exact ⟨name_injective (String.toList_inj.1 names), behind⟩

namespace Outline

variable {α β : Type}

mutual

/-- The tree without its annotations. -/
def strip : Outline α → Outline Unit
  | node kind _ content children => .node kind none content (stripAll children)

/-- The trees without their annotations. -/
def stripAll : List (Outline α) → List (Outline Unit)
  | [] => []
  | tree :: trees => tree.strip :: stripAll trees

end

mutual

/-- The literals of the tree, and no other nodes, have a content, and nothing is beneath them. -/
def Plain : Outline α → Prop
  | node kind _ content children =>
    (content.isSome ↔ kind = .literal) ∧ (kind = .literal → children = []) ∧ PlainAll children

/-- The same of several trees. -/
def PlainAll : List (Outline α) → Prop
  | [] => True
  | tree :: trees => tree.Plain ∧ PlainAll trees

end

/-- What is written of the trees behind the first one: a comma and a blank in front of each. -/
def tails : List (Outline α) → List Char
  | [] => []
  | tree :: trees => ',' :: ' ' :: (tree.debug.toList ++ tails trees)

/-- The children of a node are the first one and what follows it. -/
lemma intercalate_debugAll (tree : Outline α) (trees : List (Outline α)) :
    (", ".intercalate (debugAll (tree :: trees))).toList = tree.debug.toList ++ tails trees := by
  rw [String.toList_intercalate]
  induction trees generalizing tree with
  | nil => simp [debugAll, tails, List.intercalate]
  | cons next trees ih =>
    have more := ih next
    rw [debugAll, List.map_cons] at more
    rw [debugAll, debugAll, List.map_cons, List.map_cons, List.intercalate_cons_cons, more, tails]
    simp

/-- A literal is its kind and its quoted content. -/
lemma debug_literal (kind : NodeKind) (origin : Option α) (content : String)
    (children : List (Outline α)) :
    (node kind origin (some content) children).debug.toList =
      kind.name.toList ++ '(' :: ((Text.quoted content).toList ++ [')']) := by
  simp [debug]

/-- Any other node is its kind and its children in brackets. -/
lemma debug_inner (kind : NodeKind) (origin : Option α) (children : List (Outline α)) :
    (node kind origin none children).debug.toList =
      kind.name.toList ++
        '(' :: '[' :: ((", ".intercalate (debugAll children)).toList ++ [']', ')']) := by
  simp [debug]

/-- The one-line form starts with a letter. -/
lemma debug_head (tree : Outline α) : ∃ c more, tree.debug.toList = c :: more ∧ c.isAlpha := by
  cases tree with
  | node kind origin content children =>
    obtain ⟨c, letters, named, letter⟩ := kind.name_head
    cases content with
    | some content => exact ⟨c, _, by rw [debug_literal, named]; rfl, letter⟩
    | none => exact ⟨c, _, by rw [debug_inner, named]; rfl, letter⟩

/-- Behind the name of a kind there is a bracket. -/
lemma name_bracket_inj {kind kind' : NodeKind} {u v : List Char}
    (same : kind.name.toList ++ '(' :: u = kind'.name.toList ++ '(' :: v) : kind = kind' ∧ u = v := by
  have stops (w : List Char) : ∀ c ∈ ('(' :: w).head?, c.isAlpha = false := by
    rintro c ⟨⟩
    rfl
  obtain ⟨kinds, behind⟩ := NodeKind.name_append_inj (stops u) (stops v) same
  exact ⟨kinds, (List.cons.inj behind).2⟩

/-- A list of trees ends at the bracket behind it. -/
lemma bracket_ne_debug (tree : Outline α) (u v : List Char) : ']' :: u ≠ tree.debug.toList ++ v := by
  obtain ⟨c, more, shown, letter⟩ := tree.debug_head
  rw [shown]
  intro same
  rw [← (List.cons.inj same).1] at letter
  cases letter

mutual

/-- The one-line form of a tree says what the tree is, and where it ends. -/
theorem debug_append_inj (tree : Outline α) (tree' : Outline β) (plain : tree.Plain)
    (plain' : tree'.Plain) {u v : List Char}
    (same : tree.debug.toList ++ u = tree'.debug.toList ++ v) :
    tree.strip = tree'.strip ∧ u = v := by
  match tree, tree' with
  | node kind origin (some content) children, node kind' origin' (some content') children' =>
    rw [debug_literal, debug_literal] at same
    obtain ⟨rfl, behind⟩ := name_bracket_inj (by simpa using same)
    obtain ⟨rfl, last⟩ := quoted_append_inj (by simpa using behind)
    obtain rfl : kind = .literal := plain.1.1 rfl
    rw [strip, strip, plain.2.1 rfl, plain'.2.1 rfl]
    exact ⟨rfl, (List.cons.inj last).2⟩
  | node kind origin none children, node kind' origin' none children' =>
    rw [debug_inner, debug_inner] at same
    obtain ⟨rfl, behind⟩ := name_bracket_inj (by simpa using same)
    obtain ⟨beneath, last⟩ := debugAll_append_inj children children' plain.2.2 plain'.2.2
      (by simpa using (List.cons.inj behind).2)
    exact ⟨by rw [strip, strip, beneath], (List.cons.inj last).2⟩
  | node kind origin (some content) children, node kind' origin' none children' =>
    rw [debug_literal, debug_inner] at same
    obtain ⟨rfl, -⟩ := name_bracket_inj (by simpa using same)
    cases plain'.1.2 (plain.1.1 rfl)
  | node kind origin none children, node kind' origin' (some content') children' =>
    rw [debug_inner, debug_literal] at same
    obtain ⟨rfl, -⟩ := name_bracket_inj (by simpa using same)
    cases plain.1.2 (plain'.1.1 rfl)

/-- So does a list of trees. -/
lemma debugAll_append_inj (trees : List (Outline α)) (trees' : List (Outline β))
    (plain : PlainAll trees) (plain' : PlainAll trees') {u v : List Char}
    (same : (", ".intercalate (debugAll trees)).toList ++ ']' :: u =
      (", ".intercalate (debugAll trees')).toList ++ ']' :: v) :
    stripAll trees = stripAll trees' ∧ u = v := by
  match trees, trees' with
  | [], [] => exact ⟨rfl, (List.cons.inj same).2⟩
  | [], tree' :: trees' =>
    rw [intercalate_debugAll, List.append_assoc] at same
    exact absurd same (tree'.bracket_ne_debug u _)
  | tree :: trees, [] =>
    rw [intercalate_debugAll, List.append_assoc] at same
    exact absurd same.symm (tree.bracket_ne_debug v _)
  | tree :: trees, tree' :: trees' =>
    rw [intercalate_debugAll, intercalate_debugAll, List.append_assoc, List.append_assoc] at same
    obtain ⟨first, rest⟩ := debug_append_inj tree tree' plain.1 plain'.1 same
    obtain ⟨rest, last⟩ := tails_append_inj trees trees' plain.2 plain'.2 rest
    exact ⟨by rw [stripAll, stripAll, first, rest], last⟩

/-- Children that are followed by a bracket can be read back one by one. -/
lemma tails_append_inj (trees : List (Outline α)) (trees' : List (Outline β))
    (plain : PlainAll trees) (plain' : PlainAll trees') {u v : List Char}
    (same : tails trees ++ ']' :: u = tails trees' ++ ']' :: v) :
    stripAll trees = stripAll trees' ∧ u = v := by
  match trees, trees' with
  | [], [] => exact ⟨rfl, (List.cons.inj same).2⟩
  | [], tree' :: trees' => exact absurd (List.cons.inj same).1 (by decide)
  | tree :: trees, [] => exact absurd (List.cons.inj same).1 (by decide)
  | tree :: trees, tree' :: trees' =>
    have behind : tree.debug.toList ++ (tails trees ++ ']' :: u) =
        tree'.debug.toList ++ (tails trees' ++ ']' :: v) := by simpa [tails] using same
    obtain ⟨first, rest⟩ := debug_append_inj tree tree' plain.1 plain'.1 behind
    obtain ⟨rest, last⟩ := tails_append_inj trees trees' plain.2 plain'.2 rest
    exact ⟨by rw [stripAll, stripAll, first, rest], last⟩

end

end Outline

end Scriptlet
