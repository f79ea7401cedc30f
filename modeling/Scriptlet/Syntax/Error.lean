import Scriptlet.Lexer.Basic

/-!
# Why a text is no script

A text that is no script has one error: a cause and the location it is reported for.
-/

namespace Scriptlet

/-- What the grammar needs at a place where it has committed to a construct. -/
inductive Expectation where
  | statementOrEnd
  | onlyStatement
  | statementOrBrace
  | controlName
  | argumentOrParen
  | controlBody
  | callName
  | variableName
  | vectorTarget
  deriving DecidableEq, Repr

/-- What is needed, in words. -/
def Expectation.describe : Expectation → String
  | statementOrEnd => "statement or end of script"
  | onlyStatement => "end of input after a single statement"
  | statementOrBrace => "statement or '\x7d'"
  | controlName => "control call name directly after '!'"
  | argumentOrParen => "argument or ')'"
  | controlBody => "statement as control call body"
  | callName => "call name"
  | variableName => "variable name directly after '$'"
  | vectorTarget => "variable name or '(' after '$^'"

/-- Why tokens are no script. Where a token is named, it is the one found, if there is one. -/
inductive GrammarFault where
  /-- Something else than what the construct needs. -/
  | expected (what : Expectation) (found : Option Token)
  /-- A control call in the middle of a command. -/
  | strayBang
  /-- A caret that belongs to no vector. -/
  | strayCaret
  /-- A command that goes on where no argument can. -/
  | unendedCommand (found : Option Token)
  /-- Statements or words nest too deeply. -/
  | nesting (limit : Nat)
  /-- The starting rule does not apply. -/
  | invalid
  deriving DecidableEq, Repr

namespace GrammarFault

/-- The token found, in words; behind the last token is the end of the script. -/
def describeFound (found : Option Token) : String :=
  (found.map Token.describe).getD TokenKind.endMarker.describe

/-- The fault in words. -/
def message : GrammarFault → String
  | expected what found => s!"expected {what.describe}, found {describeFound found}"
  | strayBang => "'!' may only introduce a control call"
  | strayCaret => "'^' may only appear as part of '$^'"
  | unendedCommand found => s!"expected end of command, found {describeFound found}"
  | nesting limit => s!"nesting deeper than {limit} levels"
  | invalid => "invalid syntax"

end GrammarFault

/-- Why a text is no script: it cannot be split into tokens, or the tokens are no script. -/
inductive ParseFault where
  | lexical (fault : LexFault)
  | grammar (fault : GrammarFault)
  deriving DecidableEq, Repr

/-- The one error of a text that is no script. -/
structure ParseError where
  fault : ParseFault
  location : Location
  deriving DecidableEq, Repr

/-- The error of a text that cannot be split into tokens. -/
def LexError.toParseError (e : LexError) : ParseError :=
  ⟨.lexical e.fault, e.location⟩

namespace ParseError

/-- The stage that found the error. -/
def stage (e : ParseError) : String :=
  match e.fault with
  | .lexical _ => "lexical"
  | .grammar _ => "syntax"

/-- What is wrong. -/
def message (e : ParseError) : String :=
  match e.fault with
  | .lexical fault => fault.message
  | .grammar fault => fault.message

/-- The error on one line. -/
def describe (e : ParseError) : String :=
  s!"{e.stage} error at {e.location.describe}: {e.message}"

/-- The error with the lines of the text it is about. -/
def render (e : ParseError) (source : String) : String :=
  Excerpt.render source e.location e.message

end ParseError

end Scriptlet
