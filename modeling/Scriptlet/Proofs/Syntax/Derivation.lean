import Scriptlet.Proofs.Syntax.Phrases

/-!
# Derivations

The grammar without any way of reading it. A `Derivation` of a symbol says by which of its rules and
from which tokens the symbol is derived; it is `Lawful` if the tokens are of the kinds, and where
the rules ask for it adjacent, that the rules say. Derivations that are not `Whole` break an argument in
two where nothing separates its pieces.
-/

namespace Scriptlet

namespace Grammar

/-- The symbols of the grammar, and repetitions of them. -/
inductive Symbol where
  | name
  | callTail
  | piece
  /-- A piece with nothing before it. -/
  | adjacentPiece
  | argument
  /-- The arguments of a control call in their parentheses, or nothing. -/
  | parameters
  | statement
  /-- A statement behind any number of separators. -/
  | separated
  | statements
  | script
  | many (symbol : Symbol)

/-- What is read where the symbol is derived. -/
@[reducible]
def Symbol.Value : Symbol → Type
  | name | piece | adjacentPiece | argument => Word Token
  | callTail => Word Token × List (Word Token)
  | parameters => Option (List (Word Token))
  | statement | separated => Statement Token
  | statements | script => List (Statement Token)
  | many symbol => List symbol.Value

/-- How a symbol is derived: one constructor for each way that the grammar gives. -/
inductive Derivation : Symbol → Type
  | literal (token : Token) : Derivation .name
  | substitution (sigil : Token) (tail : Derivation .callTail) : Derivation .name
  | reference (sigil : Token) (name : Derivation .name) : Derivation .name
  | callTail (opener : Token) (name : Derivation .argument) (args : Derivation (.many .argument))
      (closer : Token) : Derivation .callTail
  | vectorCall (sigil : Token) (tail : Derivation .callTail) : Derivation .piece
  | vectorReference (sigil : Token) (name : Derivation .name) : Derivation .piece
  | plain (name : Derivation .name) : Derivation .piece
  | adjacent (piece : Derivation .piece) : Derivation .adjacentPiece
  | argument (first : Derivation .piece) (rest : Derivation (.many .adjacentPiece)) :
      Derivation .argument
  | noParameters : Derivation .parameters
  | parameters (opener : Token) (args : Derivation (.many .argument)) (closer : Token) :
      Derivation .parameters
  | block (opener : Token) (body : Derivation .statements) (closer : Token) : Derivation .statement
  | control (sigil : Token) (name : Derivation .argument) (params : Derivation .parameters)
      (body : Derivation .statement) : Derivation .statement
  | command (name : Derivation .argument) (args : Derivation (.many .argument)) :
      Derivation .statement
  | separated (separators : List Token) (statement : Derivation .statement) : Derivation .separated
  | statements (body : Derivation (.many .separated)) (separators : List Token) :
      Derivation .statements
  | script (body : Derivation .statements) (marker : Token) : Derivation .script
  | nil {symbol : Symbol} : Derivation (.many symbol)
  | cons {symbol : Symbol} (first : Derivation symbol) (rest : Derivation (.many symbol)) :
      Derivation (.many symbol)

/-- The kinds of the tokens with which pieces start. -/
def pieceKinds : List TokenKind :=
  [.literal, .quoted, .dollar, .vector]

namespace Derivation

variable {symbol : Symbol}

/-- The tokens that the symbol is derived to. -/
@[simp]
def tokens {symbol : Symbol} : Derivation symbol → List Token
  | literal token => [token]
  | substitution sigil tail => sigil :: tail.tokens
  | reference sigil name => sigil :: name.tokens
  | callTail opener name args closer => opener :: (name.tokens ++ (args.tokens ++ [closer]))
  | vectorCall sigil tail => sigil :: tail.tokens
  | vectorReference sigil name => sigil :: name.tokens
  | plain name => name.tokens
  | adjacent piece => piece.tokens
  | argument first rest => first.tokens ++ rest.tokens
  | noParameters => []
  | parameters opener args closer => opener :: (args.tokens ++ [closer])
  | block opener body closer => opener :: (body.tokens ++ [closer])
  | control sigil name params body =>
    sigil :: (name.tokens ++ (params.tokens ++ body.tokens))
  | command name args => name.tokens ++ args.tokens
  | separated separators statement => separators ++ statement.tokens
  | statements body separators => body.tokens ++ separators
  | script body marker => body.tokens ++ [marker]
  | nil => []
  | cons first rest => first.tokens ++ rest.tokens

/-- The tree that the derivation stands for. -/
def tree {symbol : Symbol} : Derivation symbol → symbol.Value
  | literal token => Word.literal token token.lexeme
  | substitution sigil tail => Word.substitution sigil tail.tree.1 tail.tree.2
  | reference sigil name => Word.reference sigil name.tree
  | callTail _ name args _ => (name.tree, args.tree)
  | vectorCall sigil tail => Word.vector sigil (.substitution sigil tail.tree.1 tail.tree.2)
  | vectorReference sigil name => Word.vector sigil (.reference sigil name.tree)
  | plain name => name.tree
  | adjacent piece => piece.tree
  | argument first rest => glue first.tree rest.tree
  | noParameters => none
  | parameters _ args _ => some args.tree
  | block opener body _ => Statement.block opener body.tree
  | control sigil name params body =>
    Statement.control sigil name.tree (params.tree.getD []) body.tree
  | command name args => Statement.command name.tree args.tree
  | separated _ statement => statement.tree
  | statements body _ => body.tree
  | script body _ => body.tree
  | nil => []
  | cons first rest => first.tree :: rest.tree

/-- What the property says of the derivation and the tokens behind it, it says of every derivation
in it and the tokens behind that. -/
def Everywhere (property : ∀ {symbol}, Derivation symbol → List Token → Prop) {symbol : Symbol} :
    Derivation symbol → List Token → Prop
  | literal token, next => property (literal token) next
  | substitution sigil tail, next =>
    property (substitution sigil tail) next ∧ tail.Everywhere property next
  | reference sigil name, next =>
    property (reference sigil name) next ∧ name.Everywhere property next
  | callTail opener name args closer, next =>
    property (callTail opener name args closer) next ∧
      name.Everywhere property (args.tokens ++ closer :: next) ∧
      args.Everywhere property (closer :: next)
  | vectorCall sigil tail, next =>
    property (vectorCall sigil tail) next ∧ tail.Everywhere property next
  | vectorReference sigil name, next =>
    property (vectorReference sigil name) next ∧ name.Everywhere property next
  | plain name, next => property (plain name) next ∧ name.Everywhere property next
  | adjacent piece, next => property (adjacent piece) next ∧ piece.Everywhere property next
  | argument first rest, next =>
    property (argument first rest) next ∧ first.Everywhere property (rest.tokens ++ next) ∧
      rest.Everywhere property next
  | noParameters, next => property noParameters next
  | parameters opener args closer, next =>
    property (parameters opener args closer) next ∧ args.Everywhere property (closer :: next)
  | block opener body closer, next =>
    property (block opener body closer) next ∧ body.Everywhere property (closer :: next)
  | control sigil name params body, next =>
    property (control sigil name params body) next ∧
      name.Everywhere property (params.tokens ++ (body.tokens ++ next)) ∧
      params.Everywhere property (body.tokens ++ next) ∧ body.Everywhere property next
  | command name args, next =>
    property (command name args) next ∧ name.Everywhere property (args.tokens ++ next) ∧
      args.Everywhere property next
  | separated separators statement, next =>
    property (separated separators statement) next ∧ statement.Everywhere property next
  | statements body separators, next =>
    property (statements body separators) next ∧ body.Everywhere property (separators ++ next)
  | script body marker, next =>
    property (script body marker) next ∧ body.Everywhere property (marker :: next)
  | @nil inner, next => property (@nil inner) next
  | cons first rest, next =>
    property (cons first rest) next ∧ first.Everywhere property (rest.tokens ++ next) ∧
      rest.Everywhere property next

/-- The rule by which the symbol is derived allows these tokens, and what is behind them. -/
def Lawful {symbol : Symbol} : Derivation symbol → List Token → Prop
  | literal token, _ => token.isLiteral
  | substitution sigil _, _ => sigil.kind = .dollar
  | reference sigil name, _ => sigil.kind = .dollar ∧ Adjacent name.tokens
  | callTail opener _ _ closer, _ =>
    opener.kind = .openParen ∧ opener.spaced = false ∧ closer.kind = .closeParen
  | vectorCall sigil _, _ => sigil.kind = .vector
  | vectorReference sigil name, _ => sigil.kind = .vector ∧ Adjacent name.tokens
  | adjacent piece, _ => Adjacent piece.tokens
  | parameters opener _ closer, _ => opener.kind = .openParen ∧ closer.kind = .closeParen
  | block opener _ closer, _ => opener.kind = .openBrace ∧ closer.kind = .closeBrace
  | control sigil name _ _, _ => sigil.kind = .bang ∧ Adjacent name.tokens
  | command _ _, next => StartsWith [.separator, .closeBrace, .endMarker] next
  | separated separators _, _ => ∀ t ∈ separators, t.kind = .separator
  | statements _ separators, _ => ∀ t ∈ separators, t.kind = .separator
  | script _ marker, _ => marker.kind = .endMarker
  | plain _, _ | argument _ _, _ | noParameters, _ | nil, _ | cons _ _, _ => True

/-- An argument ends only where no piece could be added to it. -/
def Whole {symbol : Symbol} : Derivation symbol → List Token → Prop
  | argument _ _, next => ¬ (Adjacent next ∧ StartsWith pieceKinds next)
  | _, _ => True

/-- A derivation of the grammar in which every argument is as long as it can be. -/
def Proper (d : Derivation symbol) (next : List Token) : Prop :=
  d.Everywhere (fun d next => d.Lawful next ∧ d.Whole next) next

end Derivation

end Grammar

end Scriptlet
