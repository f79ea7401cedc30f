import Scriptlet.Proofs.Lexer.Tiling
import Scriptlet.Proofs.Shape.Documented

/-!
# What spans enclose

The tokens that the nodes of a tree carry are laid out in the order of the nodes: those of a node
come before those of the nodes behind it (`Derivation.lays`). So a span runs from the first token of
its node to the last one, and encloses them all, unless the node ends with a call that has no
arguments: the span of no arguments at all is at the start of the script, and so is the end of every
span that ends there (`Script.spans_enclose`).
-/

namespace Scriptlet

/-- The span covers all of the token. -/
def Span.Covers (span : Span) (token : Token) : Prop :=
  span.start.UpTo token.span.start ∧ token.span.stop.UpTo span.stop

namespace Outline

section Leaves

variable {α : Type}

mutual

/-- The node that the last children lead to. -/
def lastLeaf : Outline α → Outline α
  | node kind origin content children =>
    (lastLeaf? children).getD (node kind origin content children)

/-- The node that the last children of the last tree lead to. -/
def lastLeaf? : List (Outline α) → Option (Outline α)
  | [] => none
  | tree :: trees => (lastLeaf? trees).or (some tree.lastLeaf)

end

/-- The tree ends with a call that has no arguments. -/
def EndsBare (tree : Outline α) : Prop :=
  tree.lastLeaf.kind = .arguments

/-- The last tree has the last leaf. -/
lemma lastLeaf?_concat (trees : List (Outline α)) (tree : Outline α) :
    lastLeaf? (trees ++ [tree]) = some tree.lastLeaf := by
  induction trees with
  | nil => rfl
  | cons first trees ih =>
    rw [List.cons_append, lastLeaf?, ih]
    rfl

/-- The last child has the last leaf. -/
lemma lastLeaf_concat {kind : NodeKind} {origin : Option α} {content : Option String}
    (trees : List (Outline α)) (tree : Outline α) :
    (node kind origin content (trees ++ [tree])).lastLeaf = tree.lastLeaf := by
  rw [lastLeaf, lastLeaf?_concat]
  rfl

/-- What holds of nodes without children, and of each node if it holds of its last child, holds of
all trees. -/
@[elab_as_elim]
theorem last_induction {motive : Outline α → Prop}
    (leaf : ∀ kind origin content, motive (node kind origin content []))
    (concat : ∀ kind origin content trees tree, motive tree →
      motive (node kind origin content (trees ++ [tree]))) : ∀ tree, motive tree
  | node kind origin content children => by
    obtain same | ⟨trees, tree, same⟩ := List.eq_nil_or_concat' children
    · rw [same]
      exact leaf kind origin content
    · have ih := last_induction leaf concat tree
      rw [same]
      exact concat kind origin content trees tree ih
termination_by tree => sizeOf tree
decreasing_by
  have shorter : sizeOf tree < sizeOf children := List.sizeOf_lt_of_mem (by simp [same])
  rw [node.sizeOf_spec]
  omega

end Leaves

/-- The tokens that the nodes of the tree carry, a node before its children. -/
def tokens (tree : Outline Token) : List Token :=
  ((tree.preorder 0).map Prod.snd).filterMap origin

/-- The span of the tree does not run backwards, and covers the tokens that the nodes carry. -/
def Encloses (tree : Outline Token) : Prop :=
  tree.span.start.UpTo tree.span.stop ∧ ∀ token ∈ tree.tokens, tree.span.Covers token

/-- All tokens of the first tree come before all tokens of the second. -/
def Apart (before : Token → Token → Prop) (tree later : Outline Token) : Prop :=
  ∀ a ∈ tree.tokens, ∀ b ∈ later.tokens, before a b

/-- The tokens of the tree are laid out in the order of its nodes: those of a child before those of
its later siblings, and the token of a node before those beneath it, unless it is the first of them.
-/
inductive Laid (before : Token → Token → Prop) : Outline Token → Prop
  | node {kind origin content children} :
    (∀ child ∈ children, Laid before child) →
    children.Pairwise (Apart before) →
    (∀ t ∈ origin, (children.flatMap tokens).head? = some t ∨
      ∀ b ∈ children.flatMap tokens, before t b) →
    Laid before (node kind origin content children)

section Tokens

variable {kind : NodeKind} {origin : Option Token} {content : Option String}
  {trees : List (Outline Token)} {tree piece : Outline Token} {before : Token → Token → Prop}

/-- The tokens of a node are its own and those of its children. -/
lemma tokens_node :
    (node kind origin content trees).tokens = origin.toList ++ trees.flatMap tokens := by
  have beneath : ((preorderAll 0 trees).map Prod.snd).filterMap Outline.origin =
      trees.flatMap tokens := by
    induction trees with
    | nil => rfl
    | cons tree trees ih =>
      rw [preorderAll, List.map_append, List.filterMap_append, ih]
      rfl
  rw [tokens, preorder, List.map_cons, preorderAll_depth trees (0 + 1) 0, List.filterMap_cons,
    beneath]
  cases origin <;> rfl

/-- A tree is a piece of itself. -/
lemma mem_preorder_self (tree : Outline Token) : tree ∈ (tree.preorder 0).map Prod.snd := by
  obtain ⟨kind, origin, content, trees⟩ := tree
  exact List.mem_cons_self

/-- A node of the tree is the root or a node of a child. -/
lemma mem_preorder_node :
    piece ∈ ((node kind origin content trees).preorder 0).map Prod.snd ↔
      piece = node kind origin content trees ∨
        ∃ child ∈ trees, piece ∈ (child.preorder 0).map Prod.snd := by
  rw [preorder, List.map_cons, List.mem_cons, preorderAll_depth trees (0 + 1) 0, mem_preorderAll]

/-- A node that carries a token starts there. -/
lemma tokens_head (carries : tree.origin.isSome) : tree.tokens.head? = tree.origin := by
  obtain ⟨kind, origin, content, children⟩ := tree
  obtain ⟨t, rfl⟩ := Option.isSome_iff_exists.1 carries
  rw [tokens_node]
  rfl

/-- Tokens that are laid out are in order; a node may carry the token of its first child. -/
lemma Laid.ordered (laid : tree.Laid before) :
    tree.tokens.Pairwise fun a b => a = b ∨ before a b := by
  induction laid with
  | @node kind origin content children _ apart first ih =>
    have beneath : (children.flatMap tokens).Pairwise fun a b => a = b ∨ before a b := by
      refine List.pairwise_flatMap.2 ⟨ih, apart.imp ?_⟩
      exact fun apart a inside b later => .inr (apart a inside b later)
    rw [tokens_node]
    cases origin with
    | none => exact beneath
    | some t =>
      refine List.Pairwise.cons (fun b inside => ?_) beneath
      obtain same | earlier := first t rfl
      · obtain ⟨rest, whole⟩ := List.head?_eq_some_iff.1 same
        rw [whole] at inside beneath
        obtain rfl | later := List.mem_cons.1 inside
        · exact .inl rfl
        · exact (List.pairwise_cons.1 beneath).1 b later
      · exact .inr (earlier b inside)

/-- A piece of a laid out tree is laid out, and its nodes are nodes of the tree. -/
lemma Laid.of_mem (laid : tree.Laid before) (inside : piece ∈ (tree.preorder 0).map Prod.snd) :
    piece.Laid before ∧
      (piece.preorder 0).map Prod.snd ⊆ (tree.preorder 0).map Prod.snd := by
  induction laid with
  | node beneath apart first ih =>
    obtain rfl | ⟨child, listed, inside⟩ := mem_preorder_node.1 inside
    · exact ⟨.node beneath apart first, List.Subset.refl _⟩
    · obtain ⟨laid, nodes⟩ := ih child listed inside
      refine ⟨laid, fun other found => ?_⟩
      exact mem_preorder_node.2 (.inr ⟨child, listed, nodes found⟩)

/-- The last tree has the last span. -/
lemma lastSpan?_concat (trees : List (Outline Token)) (tree : Outline Token) :
    lastSpan? (trees ++ [tree]) = some tree.span := by
  induction trees with
  | nil => rfl
  | cons first trees ih =>
    rw [List.cons_append, lastSpan?, ih]
    rfl

/-- A node with children stops where its last child does. -/
lemma span_concat (trees : List (Outline Token)) (tree : Outline Token) :
    (node kind origin content (trees ++ [tree])).span.stop = tree.span.stop := by
  rw [span, lastSpan?_concat]
  cases origin with
  | some t => rfl
  | none => cases trees <;> rfl

/-- A node stops where the token of its last leaf does. -/
lemma span_stop (tree : Outline Token) :
    tree.span.stop = (tree.lastLeaf.origin.map fun t => t.span.stop).getD .origin := by
  induction tree using last_induction with
  | leaf kind origin content => cases origin <;> rfl
  | concat kind origin content trees tree ih => rw [span_concat, lastLeaf_concat, ih]

/-- The token of the last leaf is the last token. -/
lemma tokens_last {t : Token} (carries : tree.lastLeaf.origin = some t) :
    tree.tokens.getLast? = some t := by
  induction tree using last_induction with
  | leaf kind origin content =>
    obtain rfl : origin = some t := carries
    rfl
  | concat kind origin content trees tree ih =>
    rw [lastLeaf_concat] at carries
    rw [tokens_node, List.flatMap_append, List.flatMap_singleton, ← List.append_assoc,
      List.getLast?_append, ih carries]
    rfl

end Tokens

section Starts

variable {kind : NodeKind} {content : Option String} {children : List (Outline Token)}
  {tree : Outline Token}

/-- A node that carries a token starts where the token does. -/
lemma start_of_origin (origin : Token) :
    (node kind (some origin) content children).span.start = origin.start := by
  rw [span]
  rfl

/-- A node that carries none starts where its first child does. -/
lemma start_of_child (child : Outline Token) :
    (node kind none content (child :: children)).span.start = child.span.start := by
  rw [span]
  rfl

/-- A node that carries none and has no children starts at the origin. -/
lemma start_of_none : (node kind none content []).span.start = .origin := by
  rw [span]
  rfl

/-- What carries a token starts where the token does. -/
lemma start_of_isSome {t : Token} (carries : tree.origin = some t) :
    tree.span.start = t.start := by
  obtain ⟨kind, origin, content, children⟩ := tree
  obtain rfl : origin = some t := carries
  exact start_of_origin t

/-- Statements and words carry a token. -/
lemma Fits.carries (fits : tree.Fits) (kind : tree.kind.isStatement ∨ tree.kind.isArgument) :
    tree.origin.isSome := by
  obtain ⟨shape, origin, content, children⟩ := tree
  cases shape with
  | script | arguments => simp [Outline.kind, NodeKind.isStatement, NodeKind.isArgument] at kind
  | literal =>
    obtain ⟨-, t, rfl, -⟩ := fits
    rfl
  | block | command | control | reference | substitution | vector | glued => exact fits.1

/-- A tree starts at its first token. -/
lemma Documented.starts (documented : tree.Documented) (filled : tree.tokens ≠ []) :
    ∃ t, tree.tokens.head? = some t ∧ tree.span.start = t.start := by
  obtain ⟨kind, origin, content, children⟩ := tree
  cases origin with
  | some t => exact ⟨t, tokens_head rfl, start_of_origin t⟩
  | none =>
    obtain ⟨fits, beneath⟩ := documented_node.1 documented
    rw [tokens_node] at filled
    cases children with
    | nil => exact absurd rfl filled
    | cons child children =>
      have carries : child.origin.isSome := by
        refine (beneath child List.mem_cons_self).fits.carries ?_
        cases kind with
        | script => exact .inl (fits.2.2 child List.mem_cons_self)
        | arguments => exact .inr (fits.2.2 child List.mem_cons_self)
        | literal =>
          obtain ⟨-, t, missing, -⟩ := fits
          cases missing
        | block | command | control | reference | substitution | vector | glued => cases fits.1
      obtain ⟨t, first⟩ := Option.isSome_iff_exists.1 carries
      refine ⟨t, ?_, (start_of_child child).trans (start_of_isSome first)⟩
      rw [tokens_node]
      show (child.tokens ++ children.flatMap tokens).head? = _
      rw [List.head?_append, tokens_head carries, first]
      rfl

end Starts

/-- The trees carry such tokens only, and these are laid out in the order of the nodes. -/
structure Lays (before : Token → Token → Prop) (trees : List (Outline Token))
    (tokens : List Token) : Prop where
  laid : ∀ tree ∈ trees, tree.Laid before
  apart : trees.Pairwise (Apart before)
  inside : ∀ tree ∈ trees, ∀ t ∈ tree.tokens, t ∈ tokens

namespace Lays

variable {before : Token → Token → Prop} {trees more : List (Outline Token)}
  {written later : List Token} {kind : NodeKind} {content : Option String} {t : Token}

/-- No trees are laid out by themselves. -/
lemma nil : Lays before [] written :=
  ⟨nofun, .nil, nofun⟩

/-- Trees that carry only such tokens carry only some of more tokens. -/
lemma mono (lays : Lays before trees written) (wider : written ⊆ later) : Lays before trees later :=
  ⟨lays.laid, lays.apart, fun tree listed t inside => wider (lays.inside tree listed t inside)⟩

/-- Trees are laid out behind trees if their tokens are. -/
lemma append (first : Lays before trees written) (second : Lays before more later)
    (ordered : (written ++ later).Pairwise before) :
    Lays before (trees ++ more) (written ++ later) := by
  refine ⟨List.forall_mem_append.2 ⟨first.laid, second.laid⟩, ?_, ?_⟩
  · refine List.pairwise_append.2 ⟨first.apart, second.apart, ?_⟩
    intro tree here tree' there a inside b inside'
    exact (List.pairwise_append.1 ordered).2.2 a (first.inside tree here a inside) b
      (second.inside tree' there b inside')
  · refine List.forall_mem_append.2 ⟨?_, ?_⟩
    · exact fun tree listed t inside => List.mem_append_left _ (first.inside tree listed t inside)
    · exact fun tree listed t inside => List.mem_append_right _ (second.inside tree listed t inside)

/-- The tokens that the trees carry are among those that were written. -/
lemma mem_written (lays : Lays before trees written) :
    ∀ t ∈ trees.flatMap tokens, t ∈ written := by
  intro t inside
  obtain ⟨tree, listed, inside⟩ := List.mem_flatMap.1 inside
  exact lays.inside tree listed t inside

/-- A node without a token of its own. -/
lemma bare (lays : Lays before trees written) :
    Lays before [.node kind none content trees] written := by
  refine ⟨List.forall_mem_singleton.2 (.node lays.laid lays.apart nofun),
    List.pairwise_singleton _ _, List.forall_mem_singleton.2 ?_⟩
  rw [tokens_node]
  exact lays.mem_written

/-- A node whose token comes before all that are beneath it. -/
lemma sigil (lays : Lays before trees written) (ordered : (t :: written).Pairwise before) :
    Lays before [.node kind (some t) content trees] (t :: written) := by
  have behind := (List.pairwise_cons.1 ordered).1
  refine ⟨List.forall_mem_singleton.2 (.node lays.laid lays.apart ?_), List.pairwise_singleton _ _,
    List.forall_mem_singleton.2 ?_⟩
  · rintro _ ⟨⟩
    exact .inr fun b inside => behind b (lays.mem_written b inside)
  · rw [tokens_node]
    exact List.forall_mem_cons.2 ⟨List.mem_cons_self, fun b inside =>
      List.mem_cons_of_mem t (lays.mem_written b inside)⟩

/-- A node that carries the token of its first child. -/
lemma shared {first : Outline Token} (lays : Lays before (first :: trees) written)
    (carries : first.origin = some t) :
    Lays before [.node kind (some t) content (first :: trees)] written := by
  have head : ((first :: trees).flatMap tokens).head? = some t := by
    rw [List.flatMap_cons, List.head?_append, tokens_head (by rw [carries]; rfl), carries]
    rfl
  refine ⟨List.forall_mem_singleton.2 (.node lays.laid lays.apart ?_), List.pairwise_singleton _ _,
    List.forall_mem_singleton.2 ?_⟩
  · rintro _ ⟨⟩
    exact .inl head
  · rw [tokens_node]
    exact List.forall_mem_cons.2 ⟨lays.mem_written t (List.mem_of_mem_head? head), lays.mem_written⟩

end Lays

end Outline

open Outline

namespace Grammar

/-- The outlines of what is read where the symbol is derived. -/
def Symbol.outlines : (symbol : Symbol) → symbol.Value → List (Outline Token)
  | name, word | piece, word | adjacentPiece, word | argument, word => [word.outline]
  | callTail, call => [call.1.outline, .ofArguments call.2]
  | parameters, args => [.ofArguments (args.getD [])]
  | statement, s | separated, s => [s.outline]
  | statements, body | script, body => Statement.outlines body
  | many symbol, values => values.flatMap symbol.outlines

variable {before : Token → Token → Prop} {written : List Token}

/-- Arguments are laid out as a node of their own. -/
lemma arguments_lays {args : List (Word Token)}
    (lays : Lays before ((Symbol.many .argument).outlines args) written) :
    Lays before [.ofArguments args] written := by
  have same : (Symbol.many .argument).outlines args = Word.outlines args := by
    rw [Word.outlines_eq, List.map_eq_flatMap]
    rfl
  rw [same] at lays
  exact lays.bare

/-- Pieces that are put together carry the token of the first one. -/
lemma glue_lays {first : Word Token} {rest : List (Word Token)} (carries : first.origin?.isSome)
    (lays : Lays before (first.outline :: (Symbol.many .adjacentPiece).outlines rest) written) :
    Lays before [(glue first rest).outline] written := by
  cases rest with
  | nil => exact lays
  | cons word words =>
    obtain ⟨t, origin⟩ := Option.isSome_iff_exists.1 carries
    have same : (Symbol.many .adjacentPiece).outlines (word :: words) =
        Word.outlines (word :: words) := by
      rw [Word.outlines_eq, List.map_eq_flatMap]
      rfl
    rw [same] at lays
    show Lays before [.node .glued first.origin? none _] written
    rw [origin]
    exact lays.shared (first.outline_origin.trans origin)

/-- A command is laid out if its name and its arguments are. -/
lemma command_lays {name : Word Token} {args : List (Word Token)} (carries : name.origin?.isSome)
    (lays : Lays before [name.outline, .ofArguments args] written) :
    Lays before [(Statement.command name args).outline] written := by
  obtain ⟨t, origin⟩ := Option.isSome_iff_exists.1 carries
  rw [Statement.outline, origin]
  exact lays.shared (name.outline_origin.trans origin)

/-- Statements are laid out if they are with what separates them. -/
lemma body_lays {body : List (Statement Token)}
    (lays : Lays before ((Symbol.many .separated).outlines body) written) :
    Lays before (Statement.outlines body) written := by
  rwa [Statement.outlines_eq, List.map_eq_flatMap]

/-- The tree of a derivation carries its tokens in their order. -/
theorem Derivation.lays {symbol : Symbol} (d : Derivation symbol)
    (ordered : d.tokens.Pairwise before) : Lays before (symbol.outlines d.tree) d.tokens := by
  -- along the derivation; separators and what closes a bracket are not in the tree, and a part of
  -- the tokens is enough to carry it
  induction d with
  | literal t => exact Lays.nil.sigil ordered
  | substitution sigil tail ih | reference sigil name ih => exact (ih ordered.tail).sigil ordered
  | callTail opener name args closer ihName ihArgs =>
    have inner : List.Sublist (name.tokens ++ args.tokens)
        (opener :: (name.tokens ++ (args.tokens ++ [closer]))) := by
      rw [← List.append_assoc]
      exact (List.sublist_append_left _ _).cons opener
    have ordered := ordered.sublist inner
    obtain ⟨front, behind, -⟩ := List.pairwise_append.1 ordered
    exact ((ihName front).append (arguments_lays (ihArgs behind)) ordered).mono inner.subset
  | vectorCall sigil tail ih =>
    exact Lays.shared ((ih ordered.tail).sigil ordered) rfl
  | vectorReference sigil name ih =>
    exact Lays.shared ((ih ordered.tail).sigil ordered) rfl
  | plain name ih => exact ih ordered
  | adjacent piece ih => exact ih ordered
  | argument first rest ihFirst ihRest =>
    obtain ⟨front, behind, -⟩ := List.pairwise_append.1 ordered
    exact glue_lays (Word.origin_isSome first.documented.1)
      ((ihFirst front).append (ihRest behind) ordered)
  | noParameters => exact Lays.nil.bare
  | parameters opener args closer ih =>
    have inner : List.Sublist args.tokens (opener :: (args.tokens ++ [closer])) :=
      (List.sublist_append_left _ _).cons opener
    exact (arguments_lays (ih (ordered.sublist inner))).mono inner.subset
  | block opener body closer ih =>
    have inner : List.Sublist (opener :: body.tokens) (opener :: (body.tokens ++ [closer])) :=
      (List.sublist_append_left _ _).cons_cons opener
    have ordered := ordered.sublist inner
    exact ((ih ordered.tail).sigil ordered).mono inner.subset
  | control sigil name params body ihName ihParams ihBody =>
    obtain ⟨first, later, -⟩ := List.pairwise_append.1 ordered.tail
    obtain ⟨second, third, -⟩ := List.pairwise_append.1 later
    have call := (ihParams second).append (ihBody third) later
    exact ((ihName first).append call ordered.tail).sigil ordered
  | command name args ihName ihArgs =>
    obtain ⟨front, behind, -⟩ := List.pairwise_append.1 ordered
    exact command_lays (Word.origin_isSome name.documented)
      ((ihName front).append (arguments_lays (ihArgs behind)) ordered)
  | separated separators statement ih =>
    have inner : List.Sublist statement.tokens (separators ++ statement.tokens) :=
      List.sublist_append_right _ _
    exact (ih (ordered.sublist inner)).mono inner.subset
  | statements body separators ih =>
    have inner : List.Sublist body.tokens (body.tokens ++ separators) :=
      List.sublist_append_left _ _
    exact (body_lays (ih (ordered.sublist inner))).mono inner.subset
  | script body marker ih =>
    have inner : List.Sublist body.tokens (body.tokens ++ [marker]) :=
      List.sublist_append_left _ _
    exact (ih (ordered.sublist inner)).mono inner.subset
  | nil => exact Lays.nil
  | cons first rest ihFirst ihRest =>
    obtain ⟨front, behind, -⟩ := List.pairwise_append.1 ordered
    exact (ihFirst front).append (ihRest behind) ordered

end Grammar

namespace Outline

/-- The first token stops before the later one starts. -/
def Behind (first later : Token) : Prop :=
  first.span.stop.UpTo later.span.start

section Ends

variable {kind : NodeKind} {origin : Option Token} {content : Option String}
  {children : List (Outline Token)} {tree child : Outline Token}

/-- No script is beneath a node. -/
lemma Fits.not_script (fits : (node kind origin content children).Fits)
    (beneath : child ∈ children) : child.kind ≠ .script := by
  intro script
  cases kind with
  | script | block =>
    have statement := fits.2.2 child beneath
    rw [script] at statement
    cases statement
  | arguments =>
    have argument := fits.2.2 child beneath
    rw [script] at argument
    cases argument
  | glued =>
    have argument := (fits.2.2.2 child beneath).1
    rw [script] at argument
    cases argument
  | literal =>
    rw [fits.1] at beneath
    exact absurd beneath List.not_mem_nil
  | command | substitution =>
    obtain ⟨-, -, name, args, rfl, argument, arguments⟩ := fits
    obtain rfl | rfl := List.mem_pair.1 beneath
    · rw [script] at argument
      cases argument
    · cases script.symm.trans arguments
  | control =>
    obtain ⟨-, -, name, args, body, rfl, argument, arguments, statement⟩ := fits
    obtain rfl | rfl | rfl := by simpa using beneath
    · rw [script] at argument
      cases argument
    · cases script.symm.trans arguments
    · rw [script] at statement
      cases statement
  | reference | vector =>
    obtain ⟨-, -, target, rfl, named⟩ := fits
    obtain rfl := List.mem_singleton.1 beneath
    rw [script] at named
    cases named

/-- The last leaf carries no token if it is the empty list of arguments of a call. -/
lemma Documented.lastLeaf_bare (documented : tree.Documented)
    (filled : tree.tokens ≠ [] ∨ tree.kind ≠ .script) :
    tree.lastLeaf.origin = none ↔ tree.EndsBare := by
  induction tree using last_induction with
  | leaf kind origin content =>
    have fits := documented.fits
    show origin = none ↔ kind = .arguments
    cases kind with
    | script =>
      obtain ⟨rfl, -, -⟩ := fits
      exact absurd filled (by simp [tokens_node, Outline.kind])
    | arguments => simp [fits.1]
    | block => simp [Option.isSome_iff_ne_none.1 fits.1]
    | literal =>
      obtain ⟨-, token, rfl, -⟩ := fits
      simp
    | command | substitution =>
      obtain ⟨-, -, name, args, missing, -⟩ := fits
      cases missing
    | control =>
      obtain ⟨-, -, name, args, body, missing, -⟩ := fits
      cases missing
    | reference | vector =>
      obtain ⟨-, -, target, missing, -⟩ := fits
      cases missing
    | glued => exact absurd fits.2.2.1 (by simp)
  | concat kind origin content trees tree ih =>
    obtain ⟨fits, beneath⟩ := documented_node.1 documented
    have inside : tree ∈ trees ++ [tree] := List.mem_append_right _ (List.mem_singleton_self tree)
    have same := ih (beneath tree inside) (.inr (fits.not_script inside))
    rwa [EndsBare, lastLeaf_concat]

/-- A tree that ends with a call without arguments stops at the start of the script. -/
lemma Documented.stop_of_bare (documented : tree.Documented) (filled : tree.tokens ≠ [])
    (bare : tree.EndsBare) : tree.span.stop = .origin := by
  rw [span_stop, (documented.lastLeaf_bare (.inl filled)).2 bare]
  rfl

/-- Any other tree stops where its last token does. -/
lemma Documented.stop_of_not_bare (documented : tree.Documented) (filled : tree.tokens ≠ [])
    (whole : ¬ tree.EndsBare) :
    ∃ t, tree.tokens.getLast? = some t ∧ tree.span.stop = t.span.stop := by
  obtain ⟨t, carries⟩ := Option.ne_none_iff_exists'.1
    (mt (documented.lastLeaf_bare (.inl filled)).1 whole)
  refine ⟨t, tokens_last carries, ?_⟩
  rw [span_stop, carries]
  rfl

end Ends

/-- The tree is as the trees of scripts are: every node fits, and the tokens are laid out as they
are written, none of them empty. -/
structure Written (tree : Outline Token) : Prop where
  documented : tree.Documented
  laid : tree.Laid Behind
  filled : ∀ t ∈ tree.tokens,
    t.span.start.UpTo t.span.stop ∧ ¬ t.span.stop.UpTo t.span.start

namespace Written

variable {tree piece : Outline Token}

/-- A piece of a tree that is laid out as it was written is so, too. -/
lemma of_mem (written : tree.Written) (inside : piece ∈ (tree.preorder 0).map Prod.snd) :
    piece.Written := by
  obtain ⟨laid, nodes⟩ := written.laid.of_mem inside
  refine ⟨fun other found => written.documented other (nodes found), laid, fun t carried => ?_⟩
  obtain ⟨other, found, origin⟩ := List.mem_filterMap.1 carried
  exact written.filled t (List.mem_filterMap.2 ⟨other, nodes found, origin⟩)

/-- No token of the tree starts before the tree does. -/
lemma starts (written : tree.Written) :
    ∀ token ∈ tree.tokens, tree.span.start.UpTo token.span.start := by
  intro token inside
  obtain ⟨first, head, start⟩ := written.documented.starts (List.ne_nil_of_mem inside)
  obtain ⟨rest, whole⟩ := List.head?_eq_some_iff.1 head
  have ordered := written.laid.ordered
  rw [whole] at ordered inside
  rw [start]
  obtain rfl | later := List.mem_cons.1 inside
  · exact .refl _
  · obtain rfl | behind := (List.pairwise_cons.1 ordered).1 token later
    · exact .refl _
    · exact (written.filled first (List.mem_of_mem_head? head)).1.trans behind

/-- No token stops behind the last one. -/
lemma stops (written : tree.Written) {last : Token} (ends : tree.tokens.getLast? = some last) :
    ∀ token ∈ tree.tokens, token.span.stop.UpTo last.span.stop := by
  intro token inside
  obtain ⟨front, whole⟩ := List.getLast?_eq_some_iff.1 ends
  have ordered := written.laid.ordered
  rw [whole] at ordered inside
  obtain earlier | same := List.mem_append.1 inside
  · obtain ⟨-, -, apart⟩ := List.pairwise_append.1 ordered
    obtain rfl | behind := apart token earlier last List.mem_cons_self
    · exact .refl _
    · exact Location.UpTo.trans behind (written.filled last (List.mem_of_mem_getLast? ends)).1
  · rw [List.mem_singleton.1 same]
    exact .refl _

/-- A tree with tokens encloses them exactly if it does not end with a call without arguments. -/
lemma encloses_iff (written : tree.Written) (filled : tree.tokens ≠ []) :
    tree.Encloses ↔ ¬ tree.EndsBare := by
  constructor
  · rintro ⟨-, covers⟩ bare
    obtain ⟨first, head, -⟩ := written.documented.starts filled
    have inside := List.mem_of_mem_head? head
    have stops := (covers first inside).2
    rw [written.documented.stop_of_bare filled bare] at stops
    -- a token that stops at the start of the script does not start before it
    exact (written.filled first inside).2 (stops.trans (.origin _))
  · intro whole
    obtain ⟨last, ends, stop⟩ := written.documented.stop_of_not_bare filled whole
    have inside := List.mem_of_mem_getLast? ends
    constructor
    · rw [stop]
      exact (written.starts last inside).trans (written.filled last inside).1
    · intro token inside
      refine ⟨written.starts token inside, ?_⟩
      rw [stop]
      exact written.stops ends token inside

/-- Statements side by side do not overlap. -/
lemma siblings (written : tree.Written) :
    tree.children.Pairwise fun s t => s.kind.isStatement → t.kind.isStatement →
      s.span.stop.UpTo t.span.start ∧ ¬ t.span.start.UpTo s.span.start := by
  obtain ⟨kind, origin, content, children⟩ := tree
  have apart : children.Pairwise (Apart Behind) := by
    cases written.laid with
    | node _ apart _ => exact apart
  refine apart.imp_of_mem fun {s t} first second apart statement statement' => ?_
  have before := written.of_mem (mem_preorder_node.2 (.inr ⟨s, first, mem_preorder_self s⟩))
  have behind := written.of_mem (mem_preorder_node.2 (.inr ⟨t, second, mem_preorder_self t⟩))
  obtain ⟨a, carries⟩ :=
    Option.isSome_iff_exists.1 (before.documented.fits.carries (.inl statement))
  obtain ⟨b, carries'⟩ :=
    Option.isSome_iff_exists.1 (behind.documented.fits.carries (.inl statement'))
  have inside := List.mem_of_mem_head? ((tokens_head (by rw [carries]; rfl)).trans carries)
  have inside' := List.mem_of_mem_head? ((tokens_head (by rw [carries']; rfl)).trans carries')
  rw [start_of_isSome carries, start_of_isSome carries']
  constructor
  · by_cases bare : s.EndsBare
    · rw [before.documented.stop_of_bare (List.ne_nil_of_mem inside) bare]
      exact .origin _
    · obtain ⟨last, ends, stop⟩ :=
        before.documented.stop_of_not_bare (List.ne_nil_of_mem inside) bare
      rw [stop]
      exact apart last (List.mem_of_mem_getLast? ends) b inside'
  · intro back
    have stop : a.span.stop.UpTo b.span.start := apart a inside b inside'
    exact (before.filled a inside).2 (stop.trans back)

end Written

end Outline

namespace Script

variable {options : Options} {limit : Nat} {source : String} {script : Script}

/-- The tree of every script that is read is as it is written. -/
lemma parse_written (read : parse options limit source = .ok script) :
    script.root.outline.Written := by
  obtain ⟨tokens, split, built⟩ := parse_eq_ok read
  obtain ⟨tiling, endsOnce⟩ := tokenize_tiling split
  obtain ⟨rest, done⟩ := Grammar.finish_eq_ok.1 built
  obtain ⟨d, proper, rfl, tree⟩ := Grammar.script_reads _ done
  cases d with
  | script body marker =>
    have nothing := endsOnce.rest_eq_nil proper
    subst nothing
    rw [List.append_nil] at tiling endsOnce
    have inner : List.Sublist body.tokens (body.tokens ++ [marker]) := List.sublist_append_left _ _
    have lays : Lays Behind [script.root.outline] body.tokens := by
      rw [root, ← show body.tree = script.body from tree]
      exact (body.lays (tiling.ordered.sublist inner)).bare
    refine ⟨parse_documented read, lays.laid _ List.mem_cons_self, fun t carried => ?_⟩
    have written := lays.inside _ List.mem_cons_self t carried
    refine tiling.filled t (inner.subset written) fun kind => ?_
    -- an end marker among the statements would not be the last token
    obtain ⟨front, behind, split⟩ := List.append_of_mem written
    have endsOnce : Grammar.EndsOnce (front ++ t :: (behind ++ [marker])) := by
      rwa [Grammar.Derivation.tokens, split, List.append_assoc, List.cons_append] at endsOnce
    exact absurd (endsOnce.nothing_behind kind) (by simp)

/-- Of every node of a script that has a token in it: it starts where its first token starts, and
its span covers its tokens exactly if it does not end with a call without arguments; the span of a
node that does stops at the start of the script. Statements side by side do not overlap. -/
theorem spans_enclose (read : parse options limit source = .ok script) :
    ∀ piece ∈ (script.root.outline.preorder 0).map Prod.snd,
      (piece.tokens ≠ [] →
        (∃ first ∈ piece.tokens.head?, piece.span.start = first.span.start) ∧
        (∀ token ∈ piece.tokens, piece.span.start.UpTo token.span.start) ∧
        (piece.Encloses ↔ ¬ piece.EndsBare) ∧
        (piece.EndsBare → piece.span.stop = .origin)) ∧
      piece.children.Pairwise fun s t => s.kind.isStatement → t.kind.isStatement →
        s.span.stop.UpTo t.span.start ∧ ¬ t.span.start.UpTo s.span.start := by
  intro piece inside
  have written := (parse_written read).of_mem inside
  refine ⟨fun filled => ⟨?_, written.starts, written.encloses_iff filled, ?_⟩, written.siblings⟩
  · exact written.documented.starts filled
  · exact written.documented.stop_of_bare filled

/-- The token that names the second command of `printThenStop`. -/
def stopToken : Token := ⟨.literal, "stop", ⟨⟨1, 0⟩, ⟨1, 4⟩⟩, false⟩

/-- A command with an argument, and one without. -/
def printThenStop : Script where
  source := "print a\nstop"
  body := [
    .command (.literal ⟨.literal, "print", ⟨⟨0, 0⟩, ⟨0, 5⟩⟩, true⟩ "print")
      [.literal ⟨.literal, "a", ⟨⟨0, 6⟩, ⟨0, 7⟩⟩, true⟩ "a"],
    .command (.literal stopToken "stop") []]

/-- The first command is enclosed; the second one and the script stop at the start of the script. -/
theorem printThenStop_spans :
    parse {} 0 "print a\nstop" = .ok printThenStop ∧
      printThenStop.root.outline.span = ⟨⟨0, 0⟩, ⟨0, 0⟩⟩ ∧
      printThenStop.root.outline.children.map Outline.span =
        [⟨⟨0, 0⟩, ⟨0, 7⟩⟩, ⟨⟨1, 0⟩, ⟨0, 0⟩⟩] ∧
      ∀ piece ∈ (printThenStop.root.outline.preorder 0).map Prod.snd,
        (piece.tokens ≠ [] →
          (∃ first ∈ piece.tokens.head?, piece.span.start = first.span.start) ∧
          (∀ token ∈ piece.tokens, piece.span.start.UpTo token.span.start) ∧
          (piece.Encloses ↔ ¬ piece.EndsBare) ∧
          (piece.EndsBare → piece.span.stop = .origin)) ∧
        piece.children.Pairwise fun s t => s.kind.isStatement → t.kind.isStatement →
          s.span.stop.UpTo t.span.start ∧ ¬ t.span.start.UpTo s.span.start :=
  have read : parse {} 0 "print a\nstop" = .ok printThenStop := rfl
  ⟨read, rfl, rfl, spans_enclose read⟩

/-- The span of the second command runs backwards. -/
theorem bare_call_not_enclosed :
    parse {} 0 "print a\nstop" = .ok printThenStop ∧
      ∃ piece ∈ (printThenStop.root.outline.preorder 0).map Prod.snd,
        piece.tokens ≠ [] ∧ ¬ piece.span.start.UpTo piece.span.stop ∧ ¬ piece.Encloses := by
  have backwards : ¬ Location.UpTo ⟨1, 0⟩ ⟨0, 0⟩ := by simp [Location.UpTo]
  refine ⟨rfl, (Statement.command (.literal stopToken "stop") []).outline, ?_, ?_, ?_, ?_⟩
  · refine mem_preorder_node.2 (.inr ⟨_, ?_, mem_preorder_self _⟩)
    exact List.mem_cons_of_mem _ List.mem_cons_self
  · exact List.cons_ne_nil stopToken _
  · exact backwards
  · exact fun encloses => backwards encloses.1

end Script

end Scriptlet
