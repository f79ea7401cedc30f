import Scriptlet.Location

/-!
# Tokens

The words of a script as the grammar sees them: literals, quoted literals, separators, brackets and
the sigils of variables, substitutions, vectors and control calls.
-/

namespace Scriptlet

/-- What a token is. -/
inductive TokenKind where
  | endMarker
  | literal
  | quoted
  | separator
  | openParen
  | closeParen
  | openBrace
  | closeBrace
  | dollar
  | vector
  | caret
  | bang
  deriving DecidableEq, Repr, Inhabited

namespace TokenKind

/-- The name under which listings of tokens and of trees show the kind. -/
def name : TokenKind → String
  | endMarker => "ENDMARKER"
  | literal => "STRING"
  | quoted => "QUOTED"
  | separator => "SEP"
  | openParen => "LPAR"
  | closeParen => "RPAR"
  | openBrace => "LBRACE"
  | closeBrace => "RBRACE"
  | dollar => "DOLLAR"
  | vector => "VECTOR"
  | caret => "CIRCUMFLEX"
  | bang => "EXCLAMATION"

/-- The kind in the words of an error message. -/
def describe : TokenKind → String
  | endMarker => "end of script"
  | literal => "literal"
  | quoted => "quoted literal"
  | separator => "command separator"
  | openParen => "'('"
  | closeParen => "')'"
  | openBrace => "'\x7b'"
  | closeBrace => "'\x7d'"
  | dollar => "'$'"
  | vector => "'$^'"
  | caret => "'^'"
  | bang => "'!'"

end TokenKind

/-- A token: its kind, the text it stands for, where it is, and whether anything separates it
from the token before it. -/
structure Token where
  kind : TokenKind
  lexeme : String
  span : Span
  spaced : Bool
  deriving DecidableEq, Repr, Inhabited

namespace Token

/-- Where the token starts. -/
def start (t : Token) : Location :=
  t.span.start

/-- The token in a listing of tokens; its lexeme stands there as it is. -/
def listing (t : Token) : String :=
  s!"{t.kind.name}('{t.lexeme}')"

/-- The token in an error message. Only a literal shows its lexeme. -/
def describe (t : Token) : String :=
  match t.kind with
  | .literal | .quoted => s!"{t.kind.describe} '{t.lexeme}'"
  | kind => kind.describe

end Token

end Scriptlet
