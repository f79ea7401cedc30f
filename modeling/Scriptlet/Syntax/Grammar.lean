import Scriptlet.Syntax.Basic
import Scriptlet.Syntax.Rule

/-!
# The grammar

    script        statements END
    statements    (SEP* statement)* SEP*
    statement     block | control | command
    block         "{" statements "}"
    control       "!" argument ["(" argument* ")"] statement
    command       argument argument*                 before SEP, "}" or END
    argument      piece piece*
    piece         vector | name
    name          literal | substitution | reference
    literal       LITERAL | QUOTED
    substitution  "$" callTail
    callTail      "(" argument argument* ")"
    reference     "$" name
    vector        "$^" (callTail | name)

Nothing may separate a sigil from what follows it, nor the pieces of an argument. Statements, pieces
and the names behind sigils nest, and each takes one level of the room that is left; `statementAt`,
`pieceAt` and `nameAt` recurse on that room.
-/

namespace Scriptlet.Grammar

open Rule

/-- A literal, quoted or not. -/
def literal : Rule (Word Token)
  | [] => .absent
  | t :: rest =>
    match t.kind with
    | .literal | .quoted => .done (.literal t t.lexeme) rest
    | _ => .absent

/-- The name and the arguments of a substitution, in parentheses. -/
def callTail (argument : Rule (Word Token)) : Rule (Word Token × List (Word Token)) := do
  let _ ← adjacent (token .openParen)
  let name ← commit .callName argument
  let args ← many argument
  let _ ← commit .argumentOrParen (token .closeParen)
  pure (name, args)

/-- A substitution. -/
def substitution (argument : Rule (Word Token)) : Rule (Word Token) := do
  let sigil ← token .dollar
  let (name, args) ← callTail argument
  pure (.substitution sigil name args)

/-- A reference to a variable. -/
def reference (name : Rule (Word Token)) : Rule (Word Token) := do
  let sigil ← token .dollar
  let name ← commit .variableName (adjacent name)
  pure (.reference sigil name)

/-- A piece that may name a variable. -/
def name (name argument : Rule (Word Token)) : Rule (Word Token) :=
  literal.or ((substitution argument).or (reference name))

/-- The substitution whose words a vector stands for. -/
def vectorCall (sigil : Token) (argument : Rule (Word Token)) : Rule (Word Token) := do
  let (name, args) ← callTail argument
  pure (.substitution sigil name args)

/-- The variable whose words a vector stands for. -/
def vectorReference (sigil : Token) (name : Rule (Word Token)) : Rule (Word Token) := do
  let name ← commit .vectorTarget (adjacent name)
  pure (.reference sigil name)

/-- A vector. -/
def vector (name argument : Rule (Word Token)) : Rule (Word Token) := do
  let sigil ← token .vector
  let target ← (vectorCall sigil argument).or (vectorReference sigil name)
  pure (.vector sigil target)

/-- A single piece, or several pieces put together. -/
def glue (first : Word Token) (rest : List (Word Token)) : Word Token :=
  if rest.isEmpty then first else .glued (first :: rest)

/-- An argument: pieces with nothing between them. -/
def argument (piece : Rule (Word Token)) : Rule (Word Token) := do
  let first ← piece
  let rest ← many (adjacent piece)
  pure (glue first rest)

mutual

/-- A name with so much room to nest. -/
def nameAt (limit : Nat) : (room : Nat) → List Token → Step (Word Token)
  | 0, tokens => fail (.nesting limit) tokens
  | room + 1, tokens =>
    name (nameAt limit room) (argument (pieceAt limit room)) tokens

/-- A piece with so much room to nest. -/
def pieceAt (limit : Nat) : (room : Nat) → List Token → Step (Word Token)
  | 0, tokens => fail (.nesting limit) tokens
  | room + 1, tokens =>
    (vector (nameAt limit room) (argument (pieceAt limit room))).or
      (name (nameAt limit room) (argument (pieceAt limit room))) tokens

end

/-- An argument with so much room to nest. -/
def argumentAt (limit room : Nat) : Rule (Word Token) :=
  argument (pieceAt limit room)

/-- Any number of separators. -/
def separators : Rule Unit := fun tokens =>
  .done () (tokens.dropWhile fun t => t.kind = .separator)

/-- A statement behind any number of separators. -/
def separated (statement : Rule (Statement Token)) : Rule (Statement Token) := do
  separators
  statement

/-- Statements with separators around them. -/
def statements (statement : Rule (Statement Token)) : Rule (List (Statement Token)) := do
  let body ← many (separated statement)
  separators
  pure body

/-- A block. -/
def block (statement : Rule (Statement Token)) : Rule (Statement Token) := do
  let brace ← token .openBrace
  let body ← statements statement
  let _ ← commit .statementOrBrace (token .closeBrace)
  pure (.block brace body)

/-- Arguments in parentheses. -/
def parenthesized (argument : Rule (Word Token)) : Rule (List (Word Token)) := do
  let _ ← token .openParen
  let args ← many argument
  let _ ← commit .argumentOrParen (token .closeParen)
  pure args

/-- A control call. -/
def control (argument : Rule (Word Token)) (statement : Rule (Statement Token)) :
    Rule (Statement Token) := do
  let sigil ← token .bang
  let name ← commit .controlName (adjacent argument)
  let args ← optional (parenthesized argument)
  let body ← commit .controlBody statement
  pure (.control sigil name (args.getD []) body)

/-- Nothing, in front of a token that ends a command. -/
def endOfCommand : Rule Unit := fun tokens =>
  match tokens.head?.map Token.kind with
  | some .separator | some .closeBrace | some .endMarker => .done () tokens
  | some .bang => fail .strayBang tokens
  | some .caret => fail .strayCaret tokens
  | _ => fail (.unendedCommand tokens.head?) tokens

/-- A command call. -/
def command (argument : Rule (Word Token)) : Rule (Statement Token) := do
  let name ← argument
  let args ← many argument
  endOfCommand
  pure (.command name args)

/-- A statement with so much room to nest. -/
def statementAt (limit : Nat) : (room : Nat) → List Token → Step (Statement Token)
  | 0, tokens => fail (.nesting limit) tokens
  | room + 1, tokens =>
    (block (statementAt limit room)).or
      ((control (argumentAt limit room) (statementAt limit room)).or
        (command (argumentAt limit room))) tokens

/-- A whole script. -/
def script (limit room : Nat) : Rule (List (Statement Token)) := do
  let body ← statements (statementAt limit room)
  let _ ← commit .statementOrEnd (token .endMarker)
  pure body

/-- At most one statement, with separators around it. -/
def single (limit room : Nat) : Rule (Option (Statement Token)) := do
  separators
  let statement ← optional (statementAt limit room)
  separators
  let _ ← commit .onlyStatement (token .endMarker)
  pure statement

/-- The levels that a limit leaves open. Without a limit (zero) there are as many as the tokens can
fill: each token opens at most two levels. -/
def room (limit : Nat) (tokens : List Token) : Nat :=
  if limit = 0 then 2 * tokens.length + 2 else limit

/-- The value of a rule that was done, or the error. -/
def finish {α : Type} (tokens : List Token) : Step α → Except ParseError α
  | .done value _ => .ok value
  | .absent => .error ⟨.grammar .invalid, here tokens⟩
  | .failed error => .error error

/-- The tree of a list of tokens that ends with the end marker. -/
def parseTokens (limit : Nat) (tokens : List Token) : Except ParseError (List (Statement Token)) :=
  finish tokens (script limit (room limit tokens) tokens)

/-- The only statement of a list of tokens that ends with the end marker, if it has one. -/
def parseSingle (limit : Nat) (tokens : List Token) : Except ParseError (Option (Statement Token)) :=
  finish tokens (single limit (room limit tokens) tokens)

end Scriptlet.Grammar
