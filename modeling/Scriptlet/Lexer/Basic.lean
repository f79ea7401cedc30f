import Scriptlet.Lexer.Fault
import Scriptlet.Lexer.Literal

/-!
# Splitting a script into tokens

A `Lexer` is a position in a script: the text that is left, how much came before it, which brackets
are open, and whether a trigger is waiting for its verbatim text. `Lexer.next` reads one token.
It is total on every state: a fault leaves a state from which reading may go on.
-/

namespace Scriptlet

/-- Where a trigger stands: none is open, one waits for so many more literals, or the verbatim text
comes next. -/
inductive Verbatim where
  | off
  | awaiting (literals : Nat)
  | now
  deriving DecidableEq, Repr, Inhabited

/-- A position in a script that is being split into tokens. -/
structure Lexer where
  /-- The text that is left. -/
  rest : List Char
  /-- How many characters came before it. -/
  offset : Nat
  /-- The location of the first character that is left. -/
  location : Location
  /-- The brackets that are open, innermost first, and where each was opened. -/
  brackets : List (Bracket × Location)
  verbatim : Verbatim
  /-- Whether the next token may be the name of a command. -/
  atStatement : Bool
  deriving DecidableEq, Repr

/-- A fault at the location it is reported for. -/
structure LexError where
  fault : LexFault
  location : Location
  deriving DecidableEq, Repr

namespace Lexer

/-- The start of a script. -/
def ofText (source : String) : Lexer where
  rest := source.toList
  offset := 0
  location := .origin
  brackets := []
  verbatim := .off
  atStatement := true

/-- Moves behind `taken`, which the text that is left starts with, to `rest`. -/
def move (lx : Lexer) (taken rest : List Char) : Lexer :=
  { lx with
    rest := rest
    offset := lx.offset + taken.length
    location := lx.location.after taken }

/-- A token made of the next characters, and the lexer behind it. -/
def emit (lx : Lexer) (kind : TokenKind) (lexeme taken rest : List Char) (spaced : Bool) :
    Token × Lexer :=
  let lx' := lx.move taken rest
  (⟨kind, .ofList lexeme, ⟨lx.location, lx'.location⟩, spaced⟩, lx')

/-- Whether the innermost open bracket is a parenthesis. -/
def inParens (lx : Lexer) : Bool :=
  match lx.brackets with
  | (.paren, _) :: _ => true
  | _ => false

/-- Opens a bracket at the current location. -/
def openBracket (lx : Lexer) (bracket : Bracket) : Lexer :=
  { lx with brackets := (bracket, lx.location) :: lx.brackets }

/-- Closes the innermost bracket, which must be of the given shape. The bracket is closed also when
it is of the other shape. -/
def closeBracket (lx : Lexer) (bracket : Bracket) : Option LexError × Lexer :=
  match lx.brackets with
  | [] => (some ⟨.unmatched bracket, lx.location⟩, lx)
  | (opened, openedAt) :: outer =>
    let error :=
      if opened = bracket then none else some ⟨.mismatched bracket opened openedAt, lx.location⟩
    (error, { lx with brackets := outer })

/-- The end of the text: an end marker, unless a bracket is open. -/
def atEnd (lx : Lexer) (spaced : Bool) : Except LexError Token × Lexer :=
  match lx.brackets with
  | (bracket, openedAt) :: _ => (.error ⟨.unclosed bracket, openedAt⟩, lx)
  | [] =>
    let (token, lx) := lx.emit .endMarker [] [] lx.rest spaced
    (.ok token, lx)

/-- A closing bracket in front of `rest`. -/
def closing (lx : Lexer) (bracket : Bracket) (c : Char) (rest : List Char) (spaced : Bool) :
    Except LexError Token × Lexer :=
  match lx.closeBracket bracket with
  | (some error, lx) => (.error error, lx)
  | (none, lx) =>
    let (token, lx) := lx.emit bracket.closer [c] [c] rest spaced
    (.ok token, lx)

/-- The token that starts with the next character, which is known to belong to no gap. -/
def symbol (options : Options) (lx : Lexer) (spaced : Bool) : Except LexError Token × Lexer :=
  let single (lx : Lexer) (kind : TokenKind) (c : Char) (rest : List Char) :=
    let (token, lx) := lx.emit kind [c] [c] rest spaced
    (.ok token, lx)
  match lx.rest with
  | [] => lx.atEnd spaced
  | '\n' :: rest => single lx .separator '\n' rest
  | '$' :: '^' :: rest =>
    let (token, lx) := lx.emit .vector ['$', '^'] ['$', '^'] rest spaced
    (.ok token, lx)
  | '$' :: rest => single lx .dollar '$' rest
  | '^' :: rest => single lx .caret '^' rest
  | '!' :: rest => single lx .bang '!' rest
  | ';' :: rest => single lx .separator ';' rest
  | '(' :: rest => single (lx.openBracket .paren) .openParen '(' rest
  | ')' :: rest => lx.closing .paren ')' rest spaced
  | '\x7b' :: rest => single (lx.openBracket .brace) .openBrace '\x7b' rest
  | '\x7d' :: rest => lx.closing .brace '\x7d' rest spaced
  | c :: rest =>
    if options.quotes && c = '"' then
      match readQuoted rest with
      | none => (.error ⟨.unterminated, lx.location⟩, lx)
      | some (value, taken, rest) =>
        let (token, lx) := lx.emit .quoted value (c :: taken) rest spaced
        (.ok token, lx)
    else
      match (c :: rest).span options.isLiteral with
      | ([], _) => (.error ⟨.unexpected c, lx.location⟩, lx)
      | (taken, rest) =>
        let (token, lx) := lx.emit .literal taken taken rest spaced
        (.ok token, lx)

/-- Skips the gap in front of the next token and reads the token. It is spaced if the gap is not
empty, if something was skipped already, or if it starts the script. -/
def ordinary (options : Options) (lx : Lexer) (spaced : Bool) : Except LexError Token × Lexer :=
  let (gap, rest) :=
    readGap options.comments (!options.newlineSeparates || lx.inParens) false lx.rest
  (lx.move gap rest).symbol options (spaced || !gap.isEmpty)

/-- The next token, leaving aside what it means for triggers. Verbatim text that turns out to be
blank is no token: the next ordinary token is read in its place. -/
def scan (options : Options) (lx : Lexer) : Except LexError Token × Lexer :=
  let spaced := lx.offset == 0
  if lx.verbatim = .now then
    let (blanks, rest) := lx.rest.span isInlineBlank
    let lx := lx.move blanks rest
    let spaced := spaced || !blanks.isEmpty
    let (taken, rest) := lx.rest.span options.isVerbatim
    let lexeme := Text.dropBlanksEnd taken
    if lexeme.isEmpty then { lx with verbatim := .off }.ordinary options spaced
    else
      let (token, lx) := lx.emit .literal lexeme taken rest spaced
      (.ok token, lx)
  else lx.ordinary options spaced

/-- What a token means for triggers. The first token of a statement opens one if it is a literal
that names one; each literal behind it counts; any other token gives the trigger up. -/
def trackTriggers (options : Options) (lx : Lexer) (token : Token) : Lexer :=
  match lx.verbatim with
  | .off =>
    match token.kind with
    | .separator | .openBrace | .closeBrace | .closeParen => { lx with atStatement := true }
    | kind =>
      let trigger :=
        if lx.atStatement && kind = .literal then options.triggers.get? token.lexeme else none
      let verbatim :=
        match trigger with
        | none => .off
        | some 0 => .now
        | some count => .awaiting count
      { lx with verbatim := verbatim, atStatement := false }
  | .awaiting count =>
    if token.kind = .literal then
      { lx with verbatim := if count = 1 then .now else .awaiting (count - 1) }
    else { lx with verbatim := .off, atStatement := token.kind = .separator }
  | .now => { lx with verbatim := .off, atStatement := token.kind = .separator }

/-- The next token and the lexer behind it. Behind the end marker there are only end markers. -/
def next (options : Options) (lx : Lexer) : Except LexError Token × Lexer :=
  match lx.scan options with
  | (.ok token, lx) => (.ok token, lx.trackTriggers options token)
  | (.error error, lx) => (.error error, lx)

/-- The results of so many readings in a row, faults included. -/
def pull (options : Options) : Nat → Lexer → List (Except LexError Token)
  | 0, _ => []
  | n + 1, lx =>
    let (result, lx) := lx.next options
    result :: lx.pull options n

/-- The readings up to and including the first end marker or fault. `room` bounds their number;
every reading but the last takes at least one character. -/
def readings (options : Options) : (room : Nat) → Lexer → List (Except LexError Token)
  | 0, _ => []
  | room + 1, lx =>
    match lx.next options with
    | (.error error, _) => [.error error]
    | (.ok token, lx) =>
      if token.kind = .endMarker then [.ok token] else .ok token :: lx.readings options room

end Lexer

/-- The readings of a script up to and including the first end marker or fault. -/
def readings (options : Options) (source : String) : List (Except LexError Token) :=
  let lx := Lexer.ofText source
  lx.readings options (lx.rest.length + 1)

/-- All tokens of a script with the end marker, or the first fault. -/
def tokenize (options : Options) (source : String) : Except LexError (List Token) :=
  (readings options source).mapM id

/-- Whether a text is complete, could be mended by more text, or can never be split into tokens. -/
inductive Completeness where
  | complete
  | incomplete
  | faulty (error : LexError)
  deriving DecidableEq, Repr

/-- How complete a script is. -/
def completeness (options : Options) (source : String) : Completeness :=
  match tokenize options source with
  | .ok _ => .complete
  | .error error => if error.fault.isIncomplete then .incomplete else .faulty error

end Scriptlet
