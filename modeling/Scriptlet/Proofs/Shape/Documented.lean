import Scriptlet.Proofs.Syntax.Acceptance
import Scriptlet.Syntax.Script

/-!
# The shapes of trees

What kinds of nodes a node of each kind has beneath it, and which nodes carry a token. Every tree
that a derivation of the grammar stands for has these shapes throughout, whatever its tokens are.
-/

namespace Scriptlet

/-- The kinds of statements. -/
def NodeKind.isStatement : NodeKind → Bool
  | block | command | control => true
  | _ => false

/-- The kinds of arguments. -/
def NodeKind.isArgument : NodeKind → Bool
  | literal | reference | substitution | vector | glued => true
  | _ => false

/-- The kinds of words that name variables. -/
def NodeKind.isName : NodeKind → Bool
  | literal | reference | substitution => true
  | _ => false

/-- The kinds of words whose words vectors stand for. -/
def NodeKind.isTarget : NodeKind → Bool
  | reference | substitution => true
  | _ => false

namespace Outline

/-- The children are the name of a call and its arguments. -/
def IsCall (children : List (Outline Token)) : Prop :=
  ∃ name args, children = [name, args] ∧ name.kind.isArgument ∧ args.kind = .arguments

/-- What is right beneath a node, and the token it carries, are as its kind says. -/
def Fits : Outline Token → Prop
  | node .script origin content children =>
    origin = none ∧ content = none ∧ ∀ child ∈ children, child.kind.isStatement
  | node .block origin content children =>
    origin.isSome ∧ content = none ∧ ∀ child ∈ children, child.kind.isStatement
  | node .command origin content children => origin.isSome ∧ content = none ∧ IsCall children
  | node .control origin content children =>
    origin.isSome ∧ content = none ∧ ∃ name args body, children = [name, args, body] ∧
      name.kind.isArgument ∧ args.kind = .arguments ∧ body.kind.isStatement
  | node .literal origin content children =>
    children = [] ∧ ∃ token, origin = some token ∧ content = some token.lexeme
  | node .arguments origin content children =>
    origin = none ∧ content = none ∧ ∀ child ∈ children, child.kind.isArgument
  | node .reference origin content children =>
    origin.isSome ∧ content = none ∧ ∃ name, children = [name] ∧ name.kind.isName
  | node .substitution origin content children =>
    origin.isSome ∧ content = none ∧ IsCall children
  | node .vector origin content children =>
    origin.isSome ∧ content = none ∧ ∃ target, children = [target] ∧ target.kind.isTarget
  | node .glued origin content children =>
    origin.isSome ∧ content = none ∧ 2 ≤ children.length ∧
      ∀ child ∈ children, child.kind.isArgument ∧ child.kind ≠ .glued

/-- Every node of the tree fits. -/
def Documented (tree : Outline Token) : Prop :=
  ∀ piece ∈ (tree.preorder 0).map Prod.snd, piece.Fits

/-- A piece of several trees is a piece of one of them. -/
lemma mem_preorderAll {piece : Outline Token} (trees : List (Outline Token)) :
    piece ∈ (preorderAll 0 trees).map Prod.snd ↔
      ∃ tree ∈ trees, piece ∈ (tree.preorder 0).map Prod.snd := by
  induction trees with
  | nil => simp [preorderAll]
  | cons tree trees ih =>
    rw [preorderAll, List.map_append, List.mem_append, ih]
    simp

/-- A tree is documented if its root fits and its children are documented. -/
lemma documented_node {kind : NodeKind} {origin : Option Token} {content : Option String}
    {children : List (Outline Token)} :
    (node kind origin content children).Documented ↔
      (node kind origin content children).Fits ∧ ∀ child ∈ children, child.Documented := by
  have beneath : ∀ piece, piece ∈ (preorderAll 1 children).map Prod.snd ↔
      ∃ tree ∈ children, piece ∈ (tree.preorder 0).map Prod.snd := by
    intro piece
    rw [preorderAll_depth children 1 0, mem_preorderAll]
  rw [Documented, preorder, List.map_cons, List.forall_mem_cons]
  refine and_congr_right fun _ => ⟨?_, ?_⟩
  · intro all child inside piece found
    exact all piece ((beneath piece).2 ⟨child, inside, found⟩)
  · intro all piece found
    obtain ⟨child, inside, found⟩ := (beneath piece).1 found
    exact all child inside piece found

/-- The root of a documented tree fits. -/
lemma Documented.fits {tree : Outline Token} (documented : tree.Documented) : tree.Fits := by
  cases tree with
  | node => exact (documented_node.1 documented).1

end Outline

open Outline

/-- The outlines of words are those of each. -/
lemma Word.outlines_eq (words : List (Word Token)) :
    Word.outlines words = words.map Word.outline := by
  induction words with
  | nil => rfl
  | cons word words ih => rw [Word.outlines, ih, List.map_cons]

/-- The outlines of statements are those of each. -/
lemma Statement.outlines_eq (body : List (Statement Token)) :
    Statement.outlines body = body.map Statement.outline := by
  induction body with
  | nil => rfl
  | cons statement body ih => rw [Statement.outlines, ih, List.map_cons]

/-- The outline of a word carries the token of the word. -/
@[simp]
lemma Word.outline_origin (word : Word Token) : word.outline.origin = word.origin? := by
  cases word <;> rfl

/-- The outline of a word may be an argument. -/
@[simp]
lemma Word.outline_argument (word : Word Token) : word.outline.kind.isArgument := by
  cases word <;> rfl

/-- The outline of a statement may be a statement. -/
@[simp]
lemma Statement.outline_statement (statement : Statement Token) :
    statement.outline.kind.isStatement := by
  cases statement <;> rfl

/-- Every argument carries a token. -/
lemma Word.origin_isSome {word : Word Token} (documented : word.outline.Documented) :
    word.origin?.isSome := by
  have fits := documented.fits
  cases word with
  | glued pieces => exact fits.1
  | literal | reference | substitution | vector => rfl

/-- The statements beneath a script or a block. -/
lemma Statement.outlines_documented {body : List (Statement Token)}
    (documented : ∀ s ∈ body, s.outline.Documented) :
    (∀ child ∈ Statement.outlines body, child.kind.isStatement) ∧
      ∀ child ∈ Statement.outlines body, child.Documented := by
  rw [Statement.outlines_eq]
  constructor
  · intro child inside
    obtain ⟨s, _, rfl⟩ := List.mem_map.1 inside
    exact s.outline_statement
  · intro child inside
    obtain ⟨s, listed, rfl⟩ := List.mem_map.1 inside
    exact documented s listed

/-- Arguments are documented if each of them is. -/
lemma Outline.documented_arguments {args : List (Word Token)} :
    (Outline.ofArguments args).Documented ↔ ∀ arg ∈ args, arg.outline.Documented := by
  rw [ofArguments, documented_node, Word.outlines_eq]
  simp [Fits]

/-- The name of a call and its arguments, as they stand beneath the call. -/
lemma Outline.isCall (name : Word Token) (args : List (Word Token)) :
    IsCall [name.outline, .ofArguments args] :=
  ⟨_, _, rfl, name.outline_argument, rfl⟩

namespace Grammar

/-- What is read where the symbol is derived has the documented shapes. -/
def Symbol.Documented : (symbol : Symbol) → symbol.Value → Prop
  | name, word => word.outline.Documented ∧ word.outline.kind.isName
  | piece, word | adjacentPiece, word => word.outline.Documented ∧ word.outline.kind ≠ .glued
  | argument, word => word.outline.Documented
  | callTail, call => call.1.outline.Documented ∧ (Outline.ofArguments call.2).Documented
  | parameters, args => (Outline.ofArguments (args.getD [])).Documented
  | statement, s | separated, s => s.outline.Documented
  | statements, body | script, body => ∀ s ∈ body, s.outline.Documented
  | many symbol, values => ∀ value ∈ values, symbol.Documented value

/-- A substitution is documented if its call is. -/
lemma substitution_documented (sigil : Token) {name : Word Token} {args : List (Word Token)}
    (call : Symbol.callTail.Documented (name, args)) :
    (Word.substitution sigil name args).outline.Documented :=
  documented_node.2 ⟨⟨rfl, rfl, isCall name args⟩,
    List.forall_mem_cons.2 ⟨call.1, List.forall_mem_singleton.2 call.2⟩⟩

/-- A reference is documented if its name is. -/
lemma reference_documented (sigil : Token) {word : Word Token}
    (named : Symbol.name.Documented word) : (Word.reference sigil word).outline.Documented :=
  documented_node.2 ⟨⟨rfl, rfl, _, rfl, named.2⟩, List.forall_mem_singleton.2 named.1⟩

/-- A vector expansion is documented if its target is, and is a call or a reference. -/
lemma vector_documented (sigil : Token) {target : Word Token}
    (documented : target.outline.Documented) (kind : target.outline.kind.isTarget) :
    (Word.vector sigil target).outline.Documented :=
  documented_node.2 ⟨⟨rfl, rfl, _, rfl, kind⟩, List.forall_mem_singleton.2 documented⟩

/-- Pieces that are glued together, or one alone, are documented if each of them is. -/
lemma glue_documented {first : Word Token} {rest : List (Word Token)}
    (piece : Symbol.piece.Documented first)
    (pieces : ∀ word ∈ rest, Symbol.adjacentPiece.Documented word) :
    (glue first rest).outline.Documented := by
  cases rest with
  | nil => exact piece.1
  | cons word words =>
    have all : ∀ other ∈ first :: word :: words, Symbol.piece.Documented other :=
      List.forall_mem_cons.2 ⟨piece, pieces⟩
    refine documented_node.2 ⟨⟨Word.origin_isSome piece.1, rfl, ?_, ?_⟩, ?_⟩
    all_goals rw [Word.outlines_eq]
    · simp
    · intro child inside
      obtain ⟨other, listed, rfl⟩ := List.mem_map.1 inside
      exact ⟨other.outline_argument, (all other listed).2⟩
    · intro child inside
      obtain ⟨other, listed, rfl⟩ := List.mem_map.1 inside
      exact (all other listed).1

namespace Derivation

/-- The tree of a derivation has the documented shapes. -/
theorem documented {symbol : Symbol} (d : Derivation symbol) : symbol.Documented d.tree := by
  induction d with
  | literal token => exact ⟨documented_node.2 ⟨⟨rfl, token, rfl, rfl⟩, nofun⟩, rfl⟩
  | substitution sigil tail ih => exact ⟨substitution_documented sigil ih, rfl⟩
  | reference sigil name ih => exact ⟨reference_documented sigil ih, rfl⟩
  | callTail opener name args closer ihName ihArgs => exact ⟨ihName, documented_arguments.2 ihArgs⟩
  | vectorCall sigil tail ih =>
    exact ⟨vector_documented sigil (substitution_documented sigil ih) rfl, nofun⟩
  | vectorReference sigil name ih =>
    exact ⟨vector_documented sigil (reference_documented sigil ih) rfl, nofun⟩
  | plain name ih =>
    refine ⟨ih.1, fun glued => ?_⟩
    have named := ih.2
    rw [show name.tree.outline.kind = .glued from glued] at named
    cases named
  | adjacent piece ih => exact ih
  | argument first rest ihFirst ihRest => exact glue_documented ihFirst ihRest
  | noParameters => exact documented_arguments.2 nofun
  | parameters opener args closer ih => exact documented_arguments.2 ih
  | block opener body closer ih =>
    obtain ⟨kinds, beneath⟩ := Statement.outlines_documented ih
    exact documented_node.2 ⟨⟨rfl, rfl, kinds⟩, beneath⟩
  | control sigil name params body ihName ihParams ihBody =>
    refine documented_node.2 ⟨⟨rfl, rfl, _, _, _, rfl, name.tree.outline_argument, rfl,
      body.tree.outline_statement⟩, ?_⟩
    exact List.forall_mem_cons.2 ⟨ihName, List.forall_mem_cons.2 ⟨ihParams,
      List.forall_mem_singleton.2 ihBody⟩⟩
  | command name args ihName ihArgs =>
    exact documented_node.2 ⟨⟨Word.origin_isSome ihName, rfl, isCall _ _⟩,
      List.forall_mem_cons.2 ⟨ihName, List.forall_mem_singleton.2 (documented_arguments.2 ihArgs)⟩⟩
  | separated separators statement ih => exact ih
  | statements body separators ih => exact ih
  | script body marker ih => exact ih
  | nil => exact nofun
  | cons first rest ihFirst ihRest => exact List.forall_mem_cons.2 ⟨ihFirst, ihRest⟩

end Derivation

/-- A statement that stands alone was read as a statement. -/
lemma single_reads {limit room : Nat} {tokens rest : List Token} {s : Statement Token}
    (done : single limit room tokens = .done (some s) rest) :
    ∃ tokens rest, statementAt limit room tokens = .done s rest := by
  simp only [single, Rule.bind_eq_done, Rule.pure_eq_done] at done
  obtain ⟨_, mid, _, found, behind, optional, _, _, _, _, _, _, rfl, rfl⟩ := done
  obtain ⟨_, same, present⟩ | ⟨missing, _⟩ := Rule.optional_eq_done.1 optional
  · cases same
    exact ⟨_, _, present⟩
  · cases missing

/-- A script that is read has documented statements only. -/
lemma parseTokens_documented {limit : Nat} {tokens : List Token} {body : List (Statement Token)}
    (read : parseTokens limit tokens = .ok body) : ∀ s ∈ body, s.outline.Documented := by
  obtain ⟨rest, done⟩ := finish_eq_ok.1 read
  obtain ⟨d, -, -, rfl⟩ := script_reads _ done
  exact d.documented

/-- So does a text that is read as one statement. -/
lemma parseSingle_documented {limit : Nat} {tokens : List Token} {s : Statement Token}
    (read : parseSingle limit tokens = .ok (some s)) : s.outline.Documented := by
  obtain ⟨rest, done⟩ := finish_eq_ok.1 read
  obtain ⟨tokens, rest, present⟩ := single_reads done
  obtain ⟨d, -, -, rfl⟩ := statementAt_reads _ present
  exact d.documented

end Grammar

namespace Script

variable {options : Options} {limit : Nat} {source : String}

/-- The tree of every script that is read has the documented shapes. -/
lemma parse_documented {script : Script} (read : parse options limit source = .ok script) :
    script.root.outline.Documented := by
  obtain ⟨tokens, -, built⟩ := parse_eq_ok read
  obtain ⟨kinds, beneath⟩ :=
    Statement.outlines_documented (Grammar.parseTokens_documented built)
  exact documented_node.2 ⟨⟨rfl, rfl, kinds⟩, beneath⟩

/-- So has the tree of every single statement. -/
lemma parseStatement_documented {s : Statement Token}
    (read : parseStatement options limit source = .ok (some s)) : s.outline.Documented := by
  rw [parseStatement] at read
  match split : tokenize options source with
  | .error error =>
    rw [split] at read
    cases read
  | .ok tokens =>
    rw [split] at read
    exact Grammar.parseSingle_documented read

end Script

end Scriptlet
