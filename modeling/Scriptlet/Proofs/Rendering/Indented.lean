import Mathlib.Data.List.Forall2
import Scriptlet.Proofs.Rendering.Inline

/-!
# The indented form of a tree

The indented form has one line for each node. A line says how deep its node lies, of which kind it is
and what its content is, and a tree can be told from the depths, kinds and contents of its nodes in
pre-order. The nodes in pre-order are those that the paths in lexicographic order lead to.
-/

namespace Scriptlet.Outline

open Text (append_inj_of_all quoted_append_inj feed_not_mem_quoted)

variable {α β : Type}

section Marks

/-- What the line of a node tells: its depth, its kind and its content. -/
abbrev Mark : Type :=
  Nat × NodeKind × Option String

/-- What the lines of the nodes tell. -/
def markAll (nodes : List (Nat × Outline α)) : List Mark :=
  nodes.map fun entry => (entry.1, entry.2.kind, entry.2.content)

/-- Marks are set from left to right. -/
lemma markAll_append (nodes more : List (Nat × Outline α)) :
    markAll (nodes ++ more) = markAll nodes ++ markAll more :=
  List.map_append

/-- No mark starts the list that lies deeper. -/
def Ends (depth : Nat) (marks : List Mark) : Prop :=
  ∀ mark ∈ marks.head?, mark.1 ≤ depth

variable {depth : Nat} {s s' : List Mark}

/-- An empty rest ends every tree. -/
lemma ends_nil (depth : Nat) : Ends depth [] :=
  fun _ first => by cases first

/-- What ends the trees of a depth ends the deeper ones. -/
lemma Ends.mono (ends : Ends depth s) : Ends (depth + 1) s :=
  fun mark first => Nat.le_succ_of_le (ends mark first)

/-- Trees of a depth end those in front of them, and go on to what ends them. -/
lemma ends_preorderAll (trees : List (Outline α)) (ends : Ends depth s) :
    Ends depth (markAll (preorderAll depth trees) ++ s) := by
  match trees with
  | [] => exact ends
  | node kind origin content children :: trees =>
    rintro mark ⟨⟩
    exact Nat.le_refl _

mutual

/-- The marks of a tree say what the tree is, and where they end: in front of a node that lies no
deeper. -/
theorem marks_append_inj {depth : Nat} {s s' : List Mark} (tree : Outline α) (tree' : Outline β)
    (ends : Ends depth s) (ends' : Ends depth s')
    (same : markAll (tree.preorder depth) ++ s = markAll (tree'.preorder depth) ++ s') :
    tree.strip = tree'.strip ∧ s = s' := by
  match tree, tree' with
  | node kind origin content children, node kind' origin' content' children' =>
    obtain ⟨root, beneath⟩ := List.cons.inj same
    obtain ⟨-, alike⟩ := Prod.mk.inj root
    obtain ⟨rfl, rfl⟩ : kind = kind' ∧ content = content' := Prod.mk.inj alike
    obtain ⟨trees, last⟩ := marksAll_append_inj children children' ends ends' beneath
    exact ⟨by rw [strip, strip, trees], last⟩

/-- So do the marks of trees that lie side by side. -/
lemma marksAll_append_inj {depth : Nat} {s s' : List Mark} (trees : List (Outline α))
    (trees' : List (Outline β)) (ends : Ends depth s) (ends' : Ends depth s')
    (same : markAll (preorderAll (depth + 1) trees) ++ s =
      markAll (preorderAll (depth + 1) trees') ++ s') :
    stripAll trees = stripAll trees' ∧ s = s' := by
  match trees, trees' with
  | [], [] => exact ⟨rfl, same⟩
  | [], node _ _ _ _ :: _ =>
    obtain rfl : s = _ :: _ := same
    exact absurd (ends _ rfl) (by simp)
  | node _ _ _ _ :: _, [] =>
    obtain rfl : _ :: _ = s' := same
    exact absurd (ends' _ rfl) (by simp)
  | tree :: trees, tree' :: trees' =>
    rw [preorderAll, preorderAll, markAll_append, markAll_append, List.append_assoc,
      List.append_assoc] at same
    obtain ⟨first, rest⟩ := marks_append_inj tree tree' (ends_preorderAll trees ends.mono)
      (ends_preorderAll trees' ends'.mono) same
    obtain ⟨rest, last⟩ := marksAll_append_inj trees trees' ends ends' rest
    exact ⟨by rw [stripAll, stripAll, first, rest], last⟩

end

end Marks

section Lines

/-- The line of a node behind its indentation: the name of its kind, and its content in quotes. -/
def heading (tree : Outline α) : List Char :=
  tree.kind.name.toList ++
    match tree.content with
    | some content => ' ' :: (Text.quoted content).toList
    | none => []

/-- A line is its indentation, four blanks for each level, and the heading. -/
lemma line_toList (depth : Nat) (tree : Outline α) :
    (tree.line depth).toList = List.replicate (4 * depth) ' ' ++ tree.heading := by
  rw [line, heading]
  cases tree.content <;> simp

/-- A line has no line feed in it. -/
lemma feed_not_mem_line (depth : Nat) (tree : Outline α) : '\n' ∉ (tree.line depth).toList := by
  have named : '\n' ∉ tree.kind.name.toList := fun inside =>
    absurd (tree.kind.name_alpha _ inside) (by decide)
  rw [line_toList, heading]
  cases tree.content with
  | none => simp [named]
  | some content => simp [named, feed_not_mem_quoted content]

/-- A line tells the depth, the kind and the content. -/
lemma line_inj {depth depth' : Nat} {tree : Outline α} {tree' : Outline β}
    (same : tree.line depth = tree'.line depth') :
    depth = depth' ∧ tree.kind = tree'.kind ∧ tree.content = tree'.content := by
  have blank (n : Nat) : ∀ c ∈ List.replicate n ' ', (c == ' ') = true := by
    intro c inside
    simp [List.eq_of_mem_replicate inside]
  have indented (kind : NodeKind) (u : List Char) :
      ∀ c ∈ (kind.name.toList ++ u).head?, (c == ' ') = false := by
    obtain ⟨c, letters, named, letter⟩ := kind.name_head
    rw [named]
    rintro _ ⟨⟩
    exact beq_eq_false_iff_ne.2 fun blank => by simp [blank] at letter
  have same := congrArg String.toList same
  rw [line_toList, line_toList] at same
  obtain ⟨margins, headings⟩ :=
    append_inj_of_all (blank _) (blank _) (indented _ _) (indented _ _) same
  have depths : 4 * depth = 4 * depth' := by simpa using congrArg List.length margins
  obtain ⟨kinds, contents⟩ := NodeKind.name_append_inj (by cases tree.content <;> simp)
    (by cases tree'.content <;> simp) headings
  refine ⟨by omega, kinds, ?_⟩
  match same : tree.content, same' : tree'.content with
  | none, none => rfl
  | some content, some content' =>
    rw [same, same'] at contents
    have quoted := (List.cons.inj contents).2
    obtain ⟨rfl, -⟩ := quoted_append_inj (u := []) (v := []) (by simpa using quoted)
    rfl
  | none, some content' | some content, none =>
    rw [same, same'] at contents
    cases contents

/-- Lines that are plain are what the text is split into, with nothing behind the last feed. -/
lemma splitOn_lines {lines : List (List Char)} (plain : ∀ line ∈ lines, '\n' ∉ line) :
    (lines.flatMap fun line => line ++ ['\n']).splitOn '\n' = lines ++ [[]] := by
  induction lines with
  | nil => rfl
  | cons line lines ih =>
    obtain ⟨first, rest⟩ := List.forall_mem_cons.1 plain
    rw [List.flatMap_cons, List.append_assoc, List.singleton_append,
      List.splitOn_append_cons_self_of_not_mem first, ih rest, List.cons_append]

/-- Each line of the indented form is that of a node. -/
lemma pretty_lines (tree : Outline α) :
    tree.pretty.toList.splitOn '\n' =
      ((tree.preorder 0).map fun entry => (entry.2.line entry.1).toList) ++ [[]] := by
  have text : tree.pretty.toList = ((tree.preorder 0).map fun entry =>
      (entry.2.line entry.1).toList).flatMap fun line => line ++ ['\n'] := by
    rw [pretty, String.toList_join, List.flatMap_map, List.flatMap_map]
    simp
  rw [text, splitOn_lines]
  intro line listed
  obtain ⟨entry, -, rfl⟩ := List.mem_map.1 listed
  exact feed_not_mem_line entry.1 entry.2

/-- The lines of nodes tell their marks. -/
lemma markAll_of_lines {nodes : List (Nat × Outline α)} {nodes' : List (Nat × Outline β)}
    (same : (nodes.map fun entry => (entry.2.line entry.1).toList) =
      nodes'.map fun entry => (entry.2.line entry.1).toList) :
    markAll nodes = markAll nodes' := by
  induction nodes generalizing nodes' with
  | nil =>
    cases nodes' with
    | nil => rfl
    | cons => cases same
  | cons entry nodes ih =>
    cases nodes' with
    | nil => cases same
    | cons entry' nodes' =>
      obtain ⟨first, rest⟩ := List.cons.inj same
      obtain ⟨depths, kinds, contents⟩ := line_inj (String.toList_inj.1 first)
      have later : markAll nodes = markAll nodes' := ih rest
      rw [markAll, markAll, List.map_cons, List.map_cons, depths, kinds, contents]
      exact congrArg _ later

/-- The indented form of a tree says what the tree is. -/
theorem pretty_inj {tree : Outline α} {tree' : Outline β} (same : tree.pretty = tree'.pretty) :
    tree.strip = tree'.strip := by
  have lines := congrArg (fun text => text.toList.splitOn '\n') same
  rw [pretty_lines, pretty_lines, List.append_left_inj] at lines
  have marks : markAll (tree.preorder 0) ++ [] = markAll (tree'.preorder 0) ++ [] := by
    rw [List.append_nil, List.append_nil]
    exact markAll_of_lines lines
  exact (marks_append_inj tree tree' (ends_nil 0) (ends_nil 0) marks).1

end Lines

section Paths

mutual

/-- The paths that lead to nodes of the tree, a node before its children. -/
def paths : Outline α → List (List Nat)
  | node _ _ _ children => [] :: pathsAll 0 children

/-- The paths that lead to nodes of the trees, if the first tree has this number. -/
def pathsAll (first : Nat) : List (Outline α) → List (List Nat)
  | [] => []
  | tree :: trees => tree.paths.map (first :: ·) ++ pathsAll (first + 1) trees

end

/-- The node that a path of child numbers leads to. -/
def at? : List Nat → Outline α → Option (Outline α)
  | [], tree => some tree
  | i :: path, tree => tree.children[i]?.bind (at? path)

mutual

/-- The nodes in pre-order are those that the paths lead to, as deep as the paths are long. -/
lemma preorder_paths (tree : Outline α) (depth : Nat) :
    List.Forall₂ (fun path entry => entry.1 = depth + path.length ∧ tree.at? path = some entry.2)
      tree.paths (tree.preorder depth) := by
  cases tree with
  | node kind origin content children =>
    refine .cons ⟨rfl, rfl⟩ ((preorderAll_paths children (depth + 1) 0).imp ?_)
    rintro _ entry ⟨i, rest, rfl, deep, leads⟩
    rw [Nat.zero_add]
    refine ⟨?_, leads⟩
    rw [deep, List.length_cons]
    omega

/-- The entries of the preorder are the trees at the paths, each at the depth of its path. -/
lemma preorderAll_paths (trees : List (Outline α)) (depth first : Nat) :
    List.Forall₂ (fun path entry => ∃ i rest, path = (first + i) :: rest ∧
        entry.1 = depth + rest.length ∧ trees[i]?.bind (at? rest) = some entry.2)
      (pathsAll first trees) (preorderAll depth trees) := by
  match trees with
  | [] => exact .nil
  | tree :: trees =>
    refine List.rel_append ?_ ((preorderAll_paths trees depth (first + 1)).imp ?_)
    · refine List.forall₂_map_left_iff.2 ((preorder_paths tree depth).imp ?_)
      rintro path entry ⟨deep, leads⟩
      exact ⟨0, path, rfl, deep, leads⟩
    · rintro _ entry ⟨i, rest, rfl, deep, leads⟩
      exact ⟨i + 1, rest, by rw [Nat.add_assoc, Nat.add_comm 1 i], deep, leads⟩

end

mutual

/-- A path is listed if it leads to a node. -/
lemma mem_paths (tree : Outline α) (path : List Nat) :
    path ∈ tree.paths ↔ (tree.at? path).isSome := by
  cases tree with
  | node kind origin content children =>
    rw [paths, List.mem_cons]
    cases path with
    | nil => simp [at?]
    | cons i rest => simp [mem_pathsAll, at?, Outline.children]

/-- A path is listed if a tree is there. -/
lemma mem_pathsAll (trees : List (Outline α)) (first : Nat) (path : List Nat) :
    path ∈ pathsAll first trees ↔
      ∃ i rest, path = (first + i) :: rest ∧ (trees[i]?.bind (at? rest)).isSome := by
  match trees with
  | [] => simp [pathsAll]
  | tree :: trees =>
    rw [pathsAll, List.mem_append, List.mem_map, mem_pathsAll trees (first + 1)]
    constructor
    · rintro (⟨rest, listed, rfl⟩ | ⟨i, rest, rfl, leads⟩)
      · exact ⟨0, rest, rfl, (mem_paths tree rest).1 listed⟩
      · exact ⟨i + 1, rest, by rw [Nat.add_assoc, Nat.add_comm 1 i], leads⟩
    · rintro ⟨_ | i, rest, rfl, leads⟩
      · exact .inl ⟨rest, (mem_paths tree rest).2 leads, rfl⟩
      · exact .inr ⟨i, rest, by rw [Nat.add_assoc, Nat.add_comm 1 i], leads⟩

end

mutual

/-- The paths are in lexicographic order, each listed once. -/
lemma paths_sorted (tree : Outline α) : tree.paths.Pairwise (· < ·) := by
  cases tree with
  | node kind origin content children =>
    refine .cons ?_ (pathsAll_sorted children 0)
    intro path listed
    obtain ⟨i, rest, rfl, -⟩ := (mem_pathsAll children 0 path).1 listed
    exact List.nil_lt_cons _ _

/-- Paths are listed in order, ancestors first. -/
lemma pathsAll_sorted (trees : List (Outline α)) (first : Nat) :
    (pathsAll first trees).Pairwise (· < ·) := by
  match trees with
  | [] => exact .nil
  | tree :: trees =>
    rw [pathsAll, List.pairwise_append, List.pairwise_map]
    refine ⟨(paths_sorted tree).imp fun less => List.cons_lt_cons_iff.2 (.inr ⟨rfl, less⟩),
      pathsAll_sorted trees (first + 1), ?_⟩
    intro path listed later listed'
    obtain ⟨rest, -, rfl⟩ := List.mem_map.1 listed
    obtain ⟨i, rest', rfl, -⟩ := (mem_pathsAll trees (first + 1) later).1 listed'
    exact List.cons_lt_cons_iff.2 (.inl (by omega))

end

end Paths

end Scriptlet.Outline
