import Scriptlet.Lexer.Options
import Scriptlet.Text.Blank

/-!
# Literals

The two ways of writing a literal, the text that a trigger takes verbatim, and the gaps between
tokens. Each reader splits the characters it is given into what it takes and the rest.
-/

namespace Scriptlet

/-- The character that a backslash and the given character stand for in a quoted literal. -/
def unescape (c : Char) : Char :=
  if c = 'n' then '\n'
  else if c = 't' then '\t'
  else if c = 'r' then '\r'
  else if c = '0' then '\x00'
  else c

/-- A quoted literal behind its opening quote: the text it stands for, the characters it takes
with its closing quote, and the rest. There is none if no quote closes it. -/
def readQuoted : List Char → Option (List Char × List Char × List Char)
  | [] => none
  | '"' :: rest => some ([], ['"'], rest)
  | '\\' :: c :: rest =>
    (readQuoted rest).map fun (value, taken, rest) => (unescape c :: value, '\\' :: c :: taken, rest)
  | c :: rest => (readQuoted rest).map fun (value, taken, rest) => (c :: value, c :: taken, rest)

/-- The characters of the tokens that are signs. -/
def signs : List Char :=
  ['$', '^', '!', '(', ')', '\x7b', '\x7d', ';']

/-- The characters in front of which verbatim text ends. -/
def verbatimEnds : List Char :=
  ['\n', ';', '\x7b', '\x7d']

/-- Whether an unquoted literal may hold the character: it is no blank, no sign, and starts neither a
comment nor a quoted literal. -/
def Options.isLiteral (options : Options) (c : Char) : Bool :=
  !Text.isBlank c && !signs.contains c && !(options.comments && c == '#') &&
    !(options.quotes && c == '"')

/-- Whether verbatim text goes on with this character. -/
def Options.isVerbatim (options : Options) (c : Char) : Bool :=
  options.verbatimToEnd || !verbatimEnds.contains c

/-- The gap in front of a token: blanks, comments, and line feeds where they separate nothing. -/
def readGap (comments newlines inComment : Bool) : List Char → List Char × List Char
  | [] => ([], [])
  | c :: rest =>
    if c = '\n' then
      if newlines then
        let (gap, rest) := readGap comments newlines false rest
        (c :: gap, rest)
      else ([], c :: rest)
    else if inComment || Text.isBlank c then
      let (gap, rest) := readGap comments newlines inComment rest
      (c :: gap, rest)
    else if comments && c = '#' then
      let (gap, rest) := readGap comments newlines true rest
      (c :: gap, rest)
    else ([], c :: rest)

/-- Whether the character is a blank that never separates. -/
def isInlineBlank (c : Char) : Bool :=
  c != '\n' && Text.isBlank c

end Scriptlet
