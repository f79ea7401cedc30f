import Scriptlet.Proofs.Syntax.Derivation
import Scriptlet.Syntax.Outline

/-!
# The literals of a derivation

The literals of the tree of a derivation, in the order of its outline, carry the literals among its
tokens: none is lost and none is used twice.
-/

namespace Scriptlet

namespace Outline

/-- The tokens of the literals in the trees, in their order. -/
def literalTokens (trees : List (Outline Token)) : List Token :=
  (((preorderAll 0 trees).map Prod.snd).filter fun piece => piece.kind = .literal).filterMap origin

mutual

/-- The pieces of a tree do not depend on its depth. -/
lemma preorder_depth {α : Type} (tree : Outline α) (depth depth' : Nat) :
    (tree.preorder depth).map Prod.snd = (tree.preorder depth').map Prod.snd := by
  cases tree with
  | node kind origin content children =>
    rw [preorder, preorder, List.map_cons, List.map_cons,
      preorderAll_depth children (depth + 1) (depth' + 1)]

/-- Nor do the pieces of several trees. -/
lemma preorderAll_depth {α : Type} (trees : List (Outline α)) (depth depth' : Nat) :
    (preorderAll depth trees).map Prod.snd = (preorderAll depth' trees).map Prod.snd := by
  cases trees with
  | nil => rfl
  | cons tree trees =>
    rw [preorderAll, preorderAll, List.map_append, List.map_append,
      preorder_depth tree depth depth', preorderAll_depth trees depth depth']

end

/-- No trees have no literals. -/
@[simp]
lemma literalTokens_nil : literalTokens [] = [] :=
  rfl

/-- The literals of trees are those of a front and of the rest. -/
lemma literalTokens_append (trees more : List (Outline Token)) :
    literalTokens (trees ++ more) = literalTokens trees ++ literalTokens more := by
  induction trees with
  | nil => rfl
  | cons tree trees ih =>
    rw [literalTokens] at ih ⊢
    rw [literalTokens, List.cons_append, preorderAll, preorderAll]
    simp only [List.map_append, List.filter_append, List.filterMap_append] at ih ⊢
    rw [ih, List.append_assoc]
    rfl

/-- The literals of trees are those of the first and of the others. -/
lemma literalTokens_cons (tree : Outline Token) (trees : List (Outline Token)) :
    literalTokens (tree :: trees) = literalTokens [tree] ++ literalTokens trees :=
  literalTokens_append [tree] trees

/-- Nodes that are not literals only pass on the literals beneath them. -/
lemma literalTokens_node {kind : NodeKind} (other : kind ≠ .literal) (origin : Option Token)
    (content : Option String) (children : List (Outline Token)) :
    literalTokens [.node kind origin content children] = literalTokens children := by
  rw [literalTokens, literalTokens, preorderAll, preorder, preorderAll, List.append_nil,
    List.map_cons, preorderAll_depth children 1 0, List.filter_cons_of_neg]
  exact fun same => other (of_decide_eq_true same)

/-- The literals that are found in a tree carry its literal tokens. -/
lemma findAll_origins (tree : Outline Token) :
    (tree.findAll .literal).filterMap origin = literalTokens [tree] := by
  rw [findAll, literalTokens, preorderAll, preorderAll, List.append_nil]

end Outline

open Outline

/-- The literals in words are those in each of them. -/
lemma Word.literalTokens_flatMap (words : List (Word Token)) :
    (words.flatMap fun word => literalTokens [word.outline]) =
      literalTokens (Word.outlines words) := by
  induction words with
  | nil => rfl
  | cons word words ih =>
    rw [List.flatMap_cons, ih]
    exact (literalTokens_cons _ _).symm

/-- The literals in statements are those in each of them. -/
lemma Statement.literalTokens_flatMap (body : List (Statement Token)) :
    (body.flatMap fun s => literalTokens [s.outline]) =
      literalTokens (Statement.outlines body) := by
  induction body with
  | nil => rfl
  | cons s body ih =>
    rw [List.flatMap_cons, ih]
    exact (literalTokens_cons _ _).symm

namespace Grammar

/-- The literals in what is read where the symbol is derived. -/
def Symbol.literals : (symbol : Symbol) → symbol.Value → List Token
  | name, word | piece, word | adjacentPiece, word | argument, word => literalTokens [word.outline]
  | callTail, call => literalTokens (call.1.outline :: Word.outlines call.2)
  | parameters, args => literalTokens (Word.outlines (args.getD []))
  | statement, s | separated, s => literalTokens [s.outline]
  | statements, body | script, body => literalTokens (Statement.outlines body)
  | many symbol, values => values.flatMap symbol.literals

/-- The literals of pieces that are glued together are those of each. -/
lemma glue_literals (first : Word Token) (rest : List (Word Token)) :
    literalTokens [(glue first rest).outline] =
      literalTokens [first.outline] ++ literalTokens (Word.outlines rest) := by
  cases rest with
  | nil => exact (List.append_nil _).symm
  | cons word words =>
    show literalTokens [.node .glued _ none _] = _
    rw [literalTokens_node (by decide), Word.outlines, literalTokens_cons]

/-- The literals of a call are those of its name and of its arguments. -/
lemma call_literals (name : Word Token) (args : List (Word Token)) :
    literalTokens [name.outline, .ofArguments args] =
      literalTokens (name.outline :: Word.outlines args) := by
  rw [literalTokens_cons, Outline.ofArguments, literalTokens_node (by decide)]
  exact (literalTokens_cons _ _).symm

/-- Tokens of all other kinds are no literals. -/
lemma filter_sigil {t : Token} {kind : TokenKind} (same : t.kind = kind)
    (other : kind ∉ [.literal, .quoted]) (tokens : List Token) :
    (t :: tokens).filter Token.isLiteral = tokens.filter Token.isLiteral := by
  refine List.filter_cons_of_neg fun h => other ?_
  rw [← same]
  simpa using isLiteral_iff.1 h

/-- Separators are no literals. -/
lemma filter_separators {separators : List Token} (kinds : ∀ t ∈ separators, t.kind = .separator) :
    separators.filter Token.isLiteral = [] := by
  refine List.filter_eq_nil_iff.2 fun t member h => ?_
  obtain kind | kind := isLiteral_iff.1 h
  · cases (kinds t member).symm.trans kind
  · cases (kinds t member).symm.trans kind

namespace Derivation

/-- The literals of the tree are the literals of the tokens. -/
theorem literals {symbol : Symbol} (d : Derivation symbol) {next : List Token}
    (proper : d.Proper next) : symbol.literals d.tree = d.tokens.filter Token.isLiteral := by
  induction d generalizing next with
  | literal token =>
    have kind : token.isLiteral = true := proper.1
    rw [tokens, List.filter_cons_of_pos kind, List.filter_nil]
    rfl
  | substitution sigil tail ih =>
    rw [tokens, filter_sigil proper.1.1 (by decide), ← ih proper.2]
    exact (literalTokens_node (by decide) _ _ _).trans (call_literals _ _)
  | reference sigil name ih =>
    rw [tokens, filter_sigil proper.1.1.1 (by decide), ← ih proper.2]
    exact literalTokens_node (by decide) _ _ _
  | callTail opener name args closer ihName ihArgs =>
    obtain ⟨⟨⟨opens, -, closes⟩, -⟩, properName, properArgs⟩ := proper
    rw [tokens, filter_sigil opens (by decide), List.filter_append, List.filter_append,
      filter_sigil closes (by decide), ← ihName properName, ← ihArgs properArgs, List.filter_nil,
      List.append_nil]
    show literalTokens (name.tree.outline :: Word.outlines args.tree) = _
    rw [literalTokens_cons, ← Word.literalTokens_flatMap]
    rfl
  | vectorCall sigil tail ih =>
    rw [tokens, filter_sigil proper.1.1 (by decide), ← ih proper.2]
    refine (literalTokens_node (by decide) _ _ _).trans ?_
    exact (literalTokens_node (by decide) _ _ _).trans (call_literals _ _)
  | vectorReference sigil name ih =>
    rw [tokens, filter_sigil proper.1.1.1 (by decide), ← ih proper.2]
    refine (literalTokens_node (by decide) _ _ _).trans ?_
    exact literalTokens_node (by decide) _ _ _
  | plain name ih => exact ih proper.2
  | adjacent piece ih => exact ih proper.2
  | argument first rest ihFirst ihRest =>
    rw [tokens, List.filter_append, ← ihFirst proper.2.1, ← ihRest proper.2.2]
    refine (glue_literals _ _).trans ?_
    rw [← Word.literalTokens_flatMap]
    rfl
  | noParameters => rfl
  | parameters opener args closer ih =>
    obtain ⟨⟨⟨opens, closes⟩, -⟩, properArgs⟩ := proper
    rw [tokens, filter_sigil opens (by decide), List.filter_append, filter_sigil closes (by decide),
      ← ih properArgs, List.filter_nil, List.append_nil]
    exact (Word.literalTokens_flatMap _).symm
  | block opener body closer ih =>
    obtain ⟨⟨⟨opens, closes⟩, -⟩, properBody⟩ := proper
    rw [tokens, filter_sigil opens (by decide), List.filter_append, filter_sigil closes (by decide),
      ← ih properBody, List.filter_nil, List.append_nil]
    exact literalTokens_node (by decide) _ _ _
  | control sigil name params body ihName ihParams ihBody =>
    obtain ⟨⟨⟨kind, -⟩, -⟩, properName, properParams, properBody⟩ := proper
    rw [tokens, filter_sigil kind (by decide), List.filter_append, List.filter_append,
      ← ihName properName, ← ihParams properParams, ← ihBody properBody]
    refine (literalTokens_node (by decide) _ _ _).trans ?_
    -- the name, the list of the parameters, and the body
    refine (literalTokens_append [_] [_, _]).trans (congrArg (_ ++ ·) ?_)
    refine (literalTokens_append [_] [_]).trans (congrArg (· ++ _) ?_)
    exact literalTokens_node (by decide) _ _ _
  | command name args ihName ihArgs =>
    rw [tokens, List.filter_append, ← ihName proper.2.1, ← ihArgs proper.2.2]
    refine (literalTokens_node (by decide) _ _ _).trans ?_
    rw [call_literals, literalTokens_cons, ← Word.literalTokens_flatMap]
    rfl
  | separated separators statement ih =>
    rw [tokens, List.filter_append, filter_separators proper.1.1, List.nil_append, ← ih proper.2]
    rfl
  | statements body separators ih =>
    rw [tokens, List.filter_append, filter_separators proper.1.1, List.append_nil, ← ih proper.2]
    exact (Statement.literalTokens_flatMap _).symm
  | script body marker ih =>
    rw [tokens, List.filter_append, filter_sigil proper.1.1 (by decide), ← ih proper.2,
      List.filter_nil, List.append_nil]
    rfl
  | nil => rfl
  | cons first rest ihFirst ihRest =>
    rw [tokens, List.filter_append, ← ihFirst proper.2.1, ← ihRest proper.2.2]
    rfl

end Derivation

end Grammar

end Scriptlet
