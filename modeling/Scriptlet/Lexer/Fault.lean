import Scriptlet.Excerpt
import Scriptlet.Text.Quoted
import Scriptlet.Token

/-!
# Why a text is no sequence of tokens

Each fault is a cause; `message` words it.
-/

namespace Scriptlet

/-- The brackets whose nesting is followed while tokens are read. -/
inductive Bracket where
  | paren
  | brace
  deriving DecidableEq, Repr, Inhabited

namespace Bracket

/-- The token that opens the bracket. -/
def opener : Bracket → TokenKind
  | paren => .openParen
  | brace => .openBrace

/-- The token that closes the bracket. -/
def closer : Bracket → TokenKind
  | paren => .closeParen
  | brace => .closeBrace

end Bracket

/-- Why no token can be read. -/
inductive LexFault where
  /-- The text ends inside this bracket. -/
  | unclosed (bracket : Bracket)
  /-- A closer stands where the innermost open bracket is another one. -/
  | mismatched (closer opened : Bracket) (openedAt : Location)
  /-- A closer stands where nothing is open. -/
  | unmatched (closer : Bracket)
  /-- The text ends inside a quoted literal. -/
  | unterminated
  /-- No token starts with this character. -/
  | unexpected (c : Char)
  deriving DecidableEq, Repr

namespace LexFault

/-- The fault in words. -/
def message : LexFault → String
  | unclosed bracket => s!"{bracket.opener.describe} is never closed"
  | mismatched closer opened openedAt =>
    s!"{closer.closer.describe} does not match {opened.opener.describe} opened at "
      ++ openedAt.describe
  | unmatched closer => s!"unmatched {closer.closer.describe}"
  | unterminated => "unterminated quoted literal"
  | unexpected c => s!"unexpected character {Text.quotedChar c}"

/-- Whether more text could mend the fault: the end came too early. -/
def isIncomplete : LexFault → Bool
  | unclosed _ | unterminated => true
  | mismatched .. | unmatched _ | unexpected _ => false

end LexFault

end Scriptlet
