import Scriptlet.Syntax.Grammar
import Scriptlet.Syntax.Outline

/-!
# Scripts

A script is a text together with the tree read from it.
-/

namespace Scriptlet

/-- How deeply statements and words may nest unless a host says otherwise. -/
def defaultMaxNesting : Nat := 128

/-- A text and the tree read from it. -/
structure Script where
  source : String
  body : List (Statement Token)
  deriving Repr

namespace Script

/-- Reads a script. At most `maxNesting` levels of statements and words may nest; zero stands for no
bound. -/
def parse (options : Options) (maxNesting : Nat) (source : String) : Except ParseError Script := do
  let tokens ← (tokenize options source).mapError LexError.toParseError
  let body ← Grammar.parseTokens maxNesting tokens
  pure ⟨source, body⟩

/-- Reads a text that holds at most one statement. -/
def parseStatement (options : Options) (maxNesting : Nat) (source : String) :
    Except ParseError (Option (Statement Token)) := do
  let tokens ← (tokenize options source).mapError LexError.toParseError
  Grammar.parseSingle maxNesting tokens

/-- The whole tree as one piece. -/
def root (script : Script) : Node Token :=
  .script script.body

end Script

end Scriptlet
