import Scriptlet.Syntax.Error

/-!
# Grammar rules

A rule looks at the tokens in front of it. It is *done* with a value and the tokens it leaves, it is
*absent*, and then an alternative may be tried on the same tokens, or it has *failed*, and then the
text is no script. Rules are put together in sequence, with ordered choice and with greedy
repetition.
-/

namespace Scriptlet

/-- What a rule makes of the tokens in front of it. -/
inductive Step (α : Type) where
  | done (value : α) (rest : List Token)
  | absent
  | failed (error : ParseError)
  deriving Repr

/-- A rule of the grammar. -/
def Rule (α : Type) : Type :=
  List Token → Step α

namespace Rule

variable {α β : Type}

/-- First one rule, then the rule chosen by its value. -/
def andThen (rule : Rule α) (next : α → Rule β) : Rule β := fun tokens =>
  match rule tokens with
  | .done value rest => next value rest
  | .absent => .absent
  | .failed error => .failed error

instance : Monad Rule where
  pure value := fun tokens => .done value tokens
  bind := andThen

/-- The first rule or, where it is absent, the second. -/
def or (rule other : Rule α) : Rule α := fun tokens =>
  match rule tokens with
  | .absent => other tokens
  | step => step

/-- Where an error about the next token is reported. -/
def here (tokens : List Token) : Location :=
  (tokens.head?.map Token.start).getD .origin

/-- The rule that always fails, at the next token. -/
def fail (fault : GrammarFault) : Rule α := fun tokens =>
  .failed ⟨.grammar fault, here tokens⟩

/-- One token of the given kind. -/
def token (kind : TokenKind) : Rule Token
  | [] => .absent
  | t :: rest => if t.kind = kind then .done t rest else .absent

/-- The rule, if nothing separates the next token from the one before it. -/
def adjacent (rule : Rule α) : Rule α
  | [] => .absent
  | t :: rest => if t.spaced then .absent else rule (t :: rest)

/-- Commits to the rule: that it is absent is an error that names what was needed. -/
def commit (what : Expectation) (rule : Rule α) : Rule α := fun tokens =>
  match rule tokens with
  | .absent => fail (.expected what tokens.head?) tokens
  | step => step

/-- The rule, or nothing where it is absent. -/
def optional (rule : Rule α) : Rule (Option α) := fun tokens =>
  match rule tokens with
  | .done value rest => .done (some value) rest
  | .absent => .done none tokens
  | .failed error => .failed error

/-- The rule as often as it is present, as long as the clock runs; the clock loses one token in each
round. -/
def manyFor (rule : Rule α) : (clock : List Token) → Rule (List α)
  | [], tokens => .done [] tokens
  | _ :: clock, tokens =>
    match rule tokens with
    | .absent => .done [] tokens
    | .failed error => .failed error
    | .done value rest =>
      match manyFor rule clock rest with
      | .done values rest => .done (value :: values) rest
      | .absent => .absent
      | .failed error => .failed error

/-- The rule as often as it is present. Every round takes a token, so there are no more rounds than
tokens. -/
def many (rule : Rule α) : Rule (List α) := fun tokens =>
  manyFor rule tokens tokens

end Rule

end Scriptlet
