import Scriptlet.Table

/-!
# Reading options

The switches that change how a script is split into tokens.
-/

namespace Scriptlet

/-- How a script is split into tokens. A *trigger* is a command whose trailing text is taken
verbatim, as one literal, once as many literals as its count have followed the name. -/
structure Options where
  /-- A hash sign starts a comment that runs to the end of the line. -/
  comments : Bool := true
  /-- A double quote opens a quoted literal. -/
  quotes : Bool := true
  /-- A line feed ends the statement. -/
  newlineSeparates : Bool := true
  /-- The triggers and their counts. -/
  triggers : Table String Nat := .empty
  /-- Verbatim text runs to the end of the script, not of the line. -/
  verbatimToEnd : Bool := false
  deriving Repr, Inhabited

end Scriptlet
