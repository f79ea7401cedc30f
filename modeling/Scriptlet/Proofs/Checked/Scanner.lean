import Scriptlet.Lexer.Basic
import Scriptlet.Proofs.Checked.Bytes

/-!
# Reading tokens at byte positions

A scanner stands at a byte of a whole text. It reads a token in passes, each of which skips
something or finds the token, and cuts what it takes out of the text. There is no result where a cut
cannot be made. It never comes to that: the scanner reads what the lexer reads.
-/

namespace Scriptlet

open String (utf8Len)

/-- A byte position in a text that is being split into tokens. -/
structure Scanner where
  source : List Char
  /-- How many bytes come before. -/
  position : Nat
  location : Location
  brackets : List (Bracket × Location)
  verbatim : Verbatim
  atStatement : Bool

/-- A quoted literal behind its opening quote, given what was read of it: the text it stands for and
how many bytes it takes. There is none if no quote closes it. -/
def measureQuoted : (escaped : Bool) → (value : List Char) → (bytes : Nat) → List Char →
    Option (List Char × Nat)
  | _, _, _, [] => none
  | true, value, bytes, c :: rest =>
    measureQuoted false (value ++ [unescape c]) (bytes + c.utf8Size) rest
  | false, value, bytes, c :: rest =>
    if c = '\\' then measureQuoted true value (bytes + c.utf8Size) rest
    else if c = '"' then some (value, bytes + c.utf8Size)
    else measureQuoted false (value ++ [c]) (bytes + c.utf8Size) rest

/-- The tokens that are signs, in the order in which they are tried. -/
def signTokens : List (List Char × TokenKind) :=
  [(['$', '^'], .vector), (['$'], .dollar), (['^'], .caret), (['!'], .bang), (['('], .openParen),
    ([')'], .closeParen), (['\x7b'], .openBrace), (['\x7d'], .closeBrace), ([';'], .separator)]

namespace Scanner

/-- What a pass has come to. -/
inductive Pass where
  | found (result : Except LexError Token)
  /-- Something was skipped, or there was no verbatim text. -/
  | again (spaced : Bool)

/-- The start of a script. -/
def ofText (source : String) : Scanner where
  source := source.toList
  position := 0
  location := .origin
  brackets := []
  verbatim := .off
  atStatement := true

/-- The text that is left. -/
def rest? (s : Scanner) : Option (List Char) :=
  Bytes.behind? s.position s.source

/-- Moves so many bytes on. -/
def advance? (s : Scanner) (bytes : Nat) : Option Scanner := do
  let taken ← Bytes.between? s.position (s.position + bytes) s.source
  some { s with position := s.position + bytes, location := s.location.after taken }

/-- Skips so many bytes. -/
def skip? (s : Scanner) (bytes : Nat) : Option (Pass × Scanner) :=
  (s.advance? bytes).map (Pass.again true, ·)

/-- A token made of so many bytes. -/
def push? (s : Scanner) (kind : TokenKind) (bytes : Nat) (lexeme : List Char) (spaced : Bool) :
    Option (Pass × Scanner) := do
  let s' ← s.advance? bytes
  some (.found (.ok ⟨kind, .ofList lexeme, ⟨s.location, s'.location⟩, spaced⟩), s')

/-- Whether the innermost open bracket is a parenthesis. -/
def inParens (s : Scanner) : Bool :=
  match s.brackets with
  | (.paren, _) :: _ => true
  | _ => false

/-- Opens a bracket. -/
def openBracket (s : Scanner) (bracket : Bracket) : Scanner :=
  { s with brackets := (bracket, s.location) :: s.brackets }

/-- Closes the innermost bracket, which must be of the given shape. -/
def closeBracket (s : Scanner) (bracket : Bracket) : Option LexError × Scanner :=
  match s.brackets with
  | [] => (some ⟨.unmatched bracket, s.location⟩, s)
  | (opened, openedAt) :: outer =>
    let error :=
      if opened = bracket then none else some ⟨.mismatched bracket opened openedAt, s.location⟩
    (error, { s with brackets := outer })

/-- What a sign means for the brackets. -/
def trackBracket (s : Scanner) : TokenKind → Option LexError × Scanner
  | .openParen => (none, s.openBracket .paren)
  | .openBrace => (none, s.openBracket .brace)
  | .closeParen => s.closeBracket .paren
  | .closeBrace => s.closeBracket .brace
  | _ => (none, s)

/-- The end of the text. -/
def atEnd? (s : Scanner) (spaced : Bool) : Option (Pass × Scanner) :=
  match s.brackets with
  | (bracket, openedAt) :: _ => some (.found (.error ⟨.unclosed bracket, openedAt⟩), s)
  | [] => s.push? .endMarker 0 [] spaced

/-- A quoted literal. -/
def quoted? (s : Scanner) (spaced : Bool) : Option (Pass × Scanner) := do
  let rest ← s.rest?
  let inner ← Bytes.behind? 1 rest
  match measureQuoted false [] 1 inner with
  | none => some (.found (.error ⟨.unterminated, s.location⟩), s)
  | some (value, bytes) => s.push? .quoted bytes value spaced

/-- The text that a trigger takes, if it is not blank. -/
def verbatimText? (options : Options) (s : Scanner) (spaced : Bool) : Option (Pass × Scanner) := do
  let rest ← s.rest?
  let bytes := utf8Len (rest.takeWhile options.isVerbatim)
  let taken ← Bytes.ahead? bytes rest
  let lexeme := Text.dropBlanksEnd taken
  if lexeme.isEmpty then some (.again spaced, { s with verbatim := .off })
  else s.push? .literal bytes lexeme spaced

/-- A sign or an unquoted literal. -/
def sign? (options : Options) (s : Scanner) (rest : List Char) (spaced : Bool) :
    Option (Pass × Scanner) :=
  match signTokens.find? fun sign => sign.1.isPrefixOf rest with
  | some (lexeme, kind) =>
    match s.trackBracket kind with
    | (some error, s) => some (.found (.error error), s)
    | (none, s) => s.push? kind (utf8Len lexeme) lexeme spaced
  | none =>
    let lexeme := rest.takeWhile options.isLiteral
    if lexeme.isEmpty then
      some (.found (.error ⟨.unexpected (rest.head?.getD '\x00'), s.location⟩), s)
    else s.push? .literal (utf8Len lexeme) lexeme spaced

/-- One pass. -/
def pass? (options : Options) (s : Scanner) (spaced : Bool) : Option (Pass × Scanner) := do
  let rest ← s.rest?
  let blanks := rest.takeWhile isInlineBlank
  if !blanks.isEmpty then s.skip? (utf8Len blanks)
  else if s.verbatim = .now then s.verbatimText? options spaced
  else if rest.isEmpty then s.atEnd? spaced
  else if rest.head? = some '\n' then
    if !options.newlineSeparates || s.inParens then s.skip? 1
    else s.push? .separator 1 ['\n'] spaced
  else if options.comments && rest.head? = some '#' then
    s.skip? (utf8Len (rest.takeWhile (· != '\n')))
  else if options.quotes && rest.head? = some '"' then s.quoted? spaced
  else s.sign? options rest spaced

/-- Passes until a token is found. -/
def passes? (options : Options) (s : Scanner) : (count : Nat) → (spaced : Bool) →
    Option (Except LexError Token × Scanner)
  | 0, _ => none
  | count + 1, spaced => do
    match ← s.pass? options spaced with
    | (.found result, s) => some (result, s)
    | (.again spaced, s) => s.passes? options count spaced

/-- What a token means for triggers. A count is never taken below zero. -/
def trackTriggers? (options : Options) (s : Scanner) (token : Token) : Option Scanner :=
  match s.verbatim with
  | .off =>
    match token.kind with
    | .separator | .openBrace | .closeBrace | .closeParen => some { s with atStatement := true }
    | kind =>
      let trigger :=
        if s.atStatement && kind = .literal then options.triggers.get? token.lexeme else none
      let verbatim :=
        match trigger with
        | none => .off
        | some 0 => .now
        | some count => .awaiting count
      some { s with verbatim := verbatim, atStatement := false }
  | .awaiting count =>
    if token.kind = .literal then
      if count = 1 then some { s with verbatim := .now }
      else if count = 0 then none
      else some { s with verbatim := .awaiting (count - 1) }
    else some { s with verbatim := .off, atStatement := token.kind = .separator }
  | .now => some { s with verbatim := .off, atStatement := token.kind = .separator }

/-- The next token. Every pass but one takes something, so there are enough of them. -/
def next? (options : Options) (s : Scanner) : Option (Except LexError Token × Scanner) := do
  match ← s.passes? options (s.source.length + 2) (s.position == 0) with
  | (.ok token, s) =>
    let s ← s.trackTriggers? options token
    some (.ok token, s)
  | (.error error, s) => some (.error error, s)

/-- The results of so many readings in a row, faults included. -/
def pull? (options : Options) : Nat → Scanner → Option (List (Except LexError Token))
  | 0, _ => some []
  | n + 1, s => do
    let (result, s) ← s.next? options
    let later ← pull? options n s
    some (result :: later)

end Scanner

end Scriptlet
