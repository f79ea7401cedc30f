import Mathlib.Tactic.Lemma
import Scriptlet.Lexer.Basic
import Scriptlet.Proofs.Syntax.Printing

/-!
# Reading printed text

A printed text has signs, quoted literals, and single spaces in front of some of them. Each of these
tokens is read whatever the options are, as long as quotes are on: no token in a printed text opens
a trigger, and no gap in it holds a line feed or a comment.
-/

namespace Scriptlet

/-- What was escaped is read back. -/
lemma readQuoted_escape (value rest : List Char) :
    readQuoted (escape value ++ '"' :: rest) = some (value, escape value ++ ['"'], rest) := by
  induction value with
  | nil => rfl
  | cons c cs ih =>
    rw [escape]
    split
    · rename_i special
      rw [List.cons_append, List.cons_append, readQuoted, ih]
      obtain rfl | rfl := special
      · rfl
      · rfl
    · rename_i plain
      rw [not_or] at plain
      rw [List.cons_append, readQuoted, ih]
      · rfl
      · exact fun quote => plain.1 quote
      · exact fun _ _ backslash _ => plain.2 backslash

/-- A space, or nothing. -/
def space (gap : Bool) : List Char :=
  if gap then [' '] else []

/-- The characters with which the tokens of a printed text start. -/
def printedSigns : List Char :=
  ['"', '$', '!', '(', ')', '\x7b', '\x7d', ';']

/-- In front of a token of a printed text, there is a space or nothing. -/
lemma readGap_space {comments newlines gap : Bool} {c : Char} {rest : List Char}
    (sign : c ∈ printedSigns) :
    readGap comments newlines false (space gap ++ c :: rest) = (space gap, c :: rest) := by
  have plain : readGap comments newlines false (c :: rest) = ([], c :: rest) := by
    have noFeed : c ≠ '\n' := by rintro rfl; revert sign; decide
    have noHash : c ≠ '#' := by rintro rfl; revert sign; decide
    have noBlanks : printedSigns.all (fun c => !Text.isBlank c) = true := by decide
    have noBlank : Text.isBlank c = false := by simpa using List.all_eq_true.1 noBlanks c sign
    rw [readGap, if_neg noFeed, noBlank]
    simp [noHash]
  cases gap with
  | false => exact plain
  | true =>
    show readGap comments newlines false (' ' :: c :: rest) = _
    rw [readGap, if_neg (by decide), if_pos (by rfl), plain]
    rfl

/-- The sign that opens the bracket. -/
def Bracket.openSign : Bracket → Char
  | paren => '('
  | brace => '\x7b'

/-- The sign that closes the bracket. -/
def Bracket.closeSign : Bracket → Char
  | paren => ')'
  | brace => '\x7d'

namespace Lexer

/-- Where the lexer stands: whether at the start of the script, inside which brackets, and in front
of which text. No trigger is open. -/
structure Stands (lx : Lexer) (fresh : Bool) (brackets : List (Bracket × Location))
    (text : List Char) : Prop where
  fresh : (lx.offset == 0) = fresh
  brackets : lx.brackets = brackets
  verbatim : lx.verbatim = .off
  rest : lx.rest = text

/-- One token of this kind is read, and the lexer stands behind it. -/
structure Takes (options : Options) (lx : Lexer) (kind : TokenKind) (lexeme : List Char)
    (spaced : Bool) (brackets : List (Bracket × Location)) (text : List Char) (token : Token)
    (last : Lexer) : Prop where
  next : lx.next options = (.ok token, last)
  kind : token.kind = kind
  lexeme : token.lexeme = .ofList lexeme
  spaced : token.spaced = spaced
  stands : last.Stands false brackets text
  shorter : last.rest.length < lx.rest.length

variable {options : Options} {lx : Lexer} {fresh gap : Bool} {brackets : List (Bracket × Location)}
  {c : Char} {rest text : List Char}

/-- The next token is read behind the gap, and then followed for triggers. -/
lemma next_eq (stands : lx.Stands fresh brackets (space gap ++ c :: rest)) (sign : c ∈ printedSigns)
    {token : Token} {mid : Lexer}
    (read : (lx.move (space gap) (c :: rest)).symbol options (fresh || gap) = (.ok token, mid)) :
    lx.next options = (.ok token, mid.trackTriggers options token) := by
  have off : lx.verbatim ≠ .now := by
    rw [stands.verbatim]
    decide
  have gapped : (!(space gap).isEmpty) = gap := by cases gap <;> rfl
  rw [next, scan, if_neg off, ordinary, stands.rest, readGap_space sign, stands.fresh]
  dsimp only
  rw [gapped, read]

/-- Only a literal opens a trigger. -/
lemma Stands.trackTriggers {token : Token} (stands : lx.Stands fresh brackets text)
    (kind : token.kind ≠ .literal) :
    (lx.trackTriggers options token).Stands fresh brackets text := by
  obtain ⟨offset, inside, off, left⟩ := stands
  rw [Lexer.trackTriggers, off]
  dsimp only
  split
  any_goals exact ⟨offset, inside, rfl, left⟩
  -- only literals open triggers
  rw [if_neg (by simp [kind])]
  exact ⟨offset, inside, rfl, left⟩

/-- A token that is made of the next characters is taken. -/
lemma takes_emit (stands : lx.Stands fresh brackets (space gap ++ c :: rest))
    (sign : c ∈ printedSigns) {kind : TokenKind} (other : kind ≠ .literal) (mid : Lexer)
    (off : mid.verbatim = .off) (lexeme more : List Char) (shorter : text.length ≤ rest.length)
    (read : (lx.move (space gap) (c :: rest)).symbol options (fresh || gap) =
      (.ok (mid.emit kind lexeme (c :: more) text (fresh || gap)).1,
        (mid.emit kind lexeme (c :: more) text (fresh || gap)).2)) :
    ∃ token last, Takes options lx kind lexeme (fresh || gap) mid.brackets text token last := by
  have behind : (mid.move (c :: more) text).Stands false mid.brackets text := by
    refine ⟨?_, rfl, off, rfl⟩
    simp only [move, List.length_cons, beq_eq_false_iff_ne]
    omega
  have tracked : ((mid.move (c :: more) text).trackTriggers options
      (mid.emit kind lexeme (c :: more) text (fresh || gap)).1).Stands false mid.brackets text :=
    behind.trackTriggers other
  refine ⟨_, _, next_eq stands sign read, rfl, rfl, rfl, tracked, ?_⟩
  refine Nat.lt_of_le_of_lt (Nat.le_of_eq (congrArg List.length tracked.rest)) ?_
  rw [stands.rest, List.length_append, List.length_cons]
  omega

/-- A quoted literal is read with its content. -/
lemma takes_quoted (quotes : options.quotes = true) {value : List Char}
    (stands : lx.Stands fresh brackets (space gap ++ '"' :: (escape value ++ '"' :: text))) :
    ∃ token last, Takes options lx .quoted value (fresh || gap) brackets text token last := by
  rw [← stands.brackets]
  refine takes_emit stands (by decide) (by decide)
    (lx.move (space gap) ('"' :: (escape value ++ '"' :: text))) stands.verbatim value
    (escape value ++ ['"']) ?_ ?_
  · rw [List.length_append, List.length_cons]
    omega
  · rw [symbol]
    show (if options.quotes && '"' = '"' then _ else _) = _
    rw [quotes, if_pos (by rfl), readQuoted_escape]

/-- A dollar is read as one unless the sign of a vector expansion follows. -/
lemma symbol_dollar {spaced : Bool} (here : lx.rest = '$' :: text)
    (other : ∀ more, text ≠ '^' :: more) :
    lx.symbol options spaced =
      (.ok (lx.emit .dollar ['$'] ['$'] text spaced).1,
        (lx.emit .dollar ['$'] ['$'] text spaced).2) := by
  rw [symbol, here]
  split
  all_goals
    rename_i same
    cases same
  · exact absurd rfl (other _)
  · rfl
  · contradiction

section Signs

variable (options)

/-- So it is behind a gap. -/
lemma takes_dollar (stands : lx.Stands fresh brackets (space gap ++ '$' :: text))
    (other : ∀ more, text ≠ '^' :: more) :
    ∃ token last, Takes options lx .dollar ['$'] (fresh || gap) brackets text token last := by
  rw [← stands.brackets]
  exact takes_emit stands (by decide) (by decide) (lx.move (space gap) ('$' :: text))
    stands.verbatim ['$'] [] (Nat.le_refl _) (symbol_dollar rfl other)

/-- The sign of a vector expansion is read. -/
lemma takes_vector (stands : lx.Stands fresh brackets (space gap ++ '$' :: '^' :: text)) :
    ∃ token last, Takes options lx .vector ['$', '^'] (fresh || gap) brackets text token last := by
  rw [← stands.brackets]
  exact takes_emit stands (by decide) (by decide) (lx.move (space gap) ('$' :: '^' :: text))
    stands.verbatim ['$', '^'] ['^'] (Nat.le_succ _) rfl

/-- The sigil of a control call is read. -/
lemma takes_bang (stands : lx.Stands fresh brackets (space gap ++ '!' :: text)) :
    ∃ token last, Takes options lx .bang ['!'] (fresh || gap) brackets text token last := by
  rw [← stands.brackets]
  exact takes_emit stands (by decide) (by decide) (lx.move (space gap) ('!' :: text))
    stands.verbatim ['!'] [] (Nat.le_refl _) rfl

/-- A separator is read. -/
lemma takes_separator (stands : lx.Stands fresh brackets (space gap ++ ';' :: text)) :
    ∃ token last, Takes options lx .separator [';'] (fresh || gap) brackets text token last := by
  rw [← stands.brackets]
  exact takes_emit stands (by decide) (by decide) (lx.move (space gap) (';' :: text))
    stands.verbatim [';'] [] (Nat.le_refl _) rfl

/-- An opening bracket is read, and is open then. -/
lemma takes_opener (bracket : Bracket)
    (stands : lx.Stands fresh brackets (space gap ++ bracket.openSign :: text)) :
    ∃ token last opened, Takes options lx bracket.opener [bracket.openSign] (fresh || gap)
      ((bracket, opened) :: brackets) text token last := by
  rw [← stands.brackets]
  have taken : ∃ token last, Takes options lx bracket.opener [bracket.openSign] (fresh || gap)
      ((lx.move (space gap) (bracket.openSign :: text)).openBracket bracket).brackets text token
      last := by
    cases bracket with
    | paren =>
      exact takes_emit stands (by decide) (by decide)
        ((lx.move (space gap) ('(' :: text)).openBracket .paren) stands.verbatim ['('] []
        (Nat.le_refl _) rfl
    | brace =>
      exact takes_emit stands (by decide) (by decide)
        ((lx.move (space gap) ('\x7b' :: text)).openBracket .brace) stands.verbatim ['\x7b'] []
        (Nat.le_refl _) rfl
  obtain ⟨token, last, takes⟩ := taken
  exact ⟨token, last, _, takes⟩

/-- The lexer inside a bracket that is closed next. -/
lemma closing_eq {bracket : Bracket} {opened : Location} {spaced : Bool}
    (inside : lx.brackets = (bracket, opened) :: brackets) :
    lx.closing bracket c text spaced =
      (.ok ({ lx with brackets := brackets }.emit bracket.closer [c] [c] text spaced).1,
        ({ lx with brackets := brackets }.emit bracket.closer [c] [c] text spaced).2) := by
  rw [closing, closeBracket, inside]
  simp only [if_pos]

/-- A closing bracket is read, and closes the innermost one. -/
lemma takes_closer (bracket : Bracket) {opened : Location}
    (stands : lx.Stands fresh ((bracket, opened) :: brackets)
      (space gap ++ bracket.closeSign :: text)) :
    ∃ token last, Takes options lx bracket.closer [bracket.closeSign] (fresh || gap) brackets text
      token last := by
  have inside : (lx.move (space gap) (bracket.closeSign :: text)).brackets =
      (bracket, opened) :: brackets := stands.brackets
  cases bracket with
  | paren =>
    exact takes_emit stands (by decide) (by decide)
      { lx.move (space gap) (')' :: text) with brackets := brackets } stands.verbatim [')'] []
      (Nat.le_refl _) (closing_eq inside)
  | brace =>
    exact takes_emit stands (by decide) (by decide)
      { lx.move (space gap) ('\x7d' :: text) with brackets := brackets } stands.verbatim ['\x7d'] []
      (Nat.le_refl _) (closing_eq inside)

end Signs

/-- Where the text ends and no bracket is open, the end marker is read. -/
lemma atEnd_eq {spaced : Bool} (closed : lx.brackets = []) :
    lx.atEnd spaced =
      (.ok (lx.emit .endMarker [] [] lx.rest spaced).1,
        (lx.emit .endMarker [] [] lx.rest spaced).2) := by
  rw [atEnd, closed]

/-- At the end of a script there is the end marker. -/
lemma next_end (stands : lx.Stands fresh [] []) :
    ∃ marker last, lx.next options = (.ok marker, last) ∧ marker.kind = .endMarker := by
  have off : lx.verbatim ≠ .now := by
    rw [stands.verbatim]
    decide
  have closed : (lx.move [] []).brackets = [] := stands.brackets
  have read : (lx.move [] []).symbol options (lx.offset == 0 || !([] : List Char).isEmpty) = _ :=
    atEnd_eq closed
  rw [next, scan, if_neg off, ordinary, stands.rest, readGap]
  dsimp only
  rw [read]
  exact ⟨_, _, rfl, rfl⟩

/-- The lexer reads the tokens one after the other, each from at least one character, and gets to
another state. -/
inductive Reads (options : Options) : Lexer → List Token → Lexer → Prop
  | nil {here} :
    Reads options here [] here
  | cons {here mid last token tokens} :
    here.next options = (.ok token, mid) →
    token.kind ≠ .endMarker →
    mid.rest.length < here.rest.length →
    Reads options mid tokens last →
    Reads options here (token :: tokens) last

/-- Tokens that are read one part after the other are read. -/
lemma Reads.append {mid last : Lexer} {tokens more : List Token}
    (first : Reads options lx tokens mid) (second : Reads options mid more last) :
    Reads options lx (tokens ++ more) last := by
  induction first with
  | nil => exact second
  | cons read inner shorter _ ih => exact .cons read inner shorter (ih second)

/-- A token in front of others that are read is read with them. -/
lemma Takes.cons {kind : TokenKind} {lexeme : List Char} {spaced : Bool} {token : Token}
    {mid last : Lexer} {tokens : List Token}
    (takes : Takes options lx kind lexeme spaced brackets text token mid)
    (inner : kind ≠ .endMarker) (more : Reads options mid tokens last) :
    Reads options lx (token :: tokens) last :=
  .cons takes.next (takes.kind ▸ inner) takes.shorter more

/-- A token alone is read. -/
lemma Takes.single {kind : TokenKind} {lexeme : List Char} {spaced : Bool} {token : Token}
    {last : Lexer} (takes : Takes options lx kind lexeme spaced brackets text token last)
    (inner : kind ≠ .endMarker) : Reads options lx [token] last :=
  takes.cons inner .nil

/-- The readings are the tokens with the end marker. -/
lemma Reads.readings {last behind : Lexer} {tokens : List Token} {marker : Token}
    (reads : Reads options lx tokens last) (ends : last.next options = (.ok marker, behind))
    (kind : marker.kind = .endMarker) {room : Nat} (enough : lx.rest.length < room) :
    lx.readings options room = (tokens ++ [marker]).map .ok := by
  -- each token takes a character, so there is room for the next one
  induction reads generalizing room with
  | nil =>
    obtain _ | room := room
    · cases enough
    rw [Lexer.readings, ends]
    dsimp only
    rw [if_pos kind]
    rfl
  | cons read inner shorter _ ih =>
    obtain _ | room := room
    · cases enough
    rw [Lexer.readings, read]
    dsimp only
    rw [if_neg inner, ih ends (by omega)]
    rfl

end Lexer

/-- Values without an error among them are all given. -/
lemma mapM_ok {ε α : Type} (values : List α) :
    (values.map (Except.ok : α → Except ε α)).mapM id = .ok values := by
  induction values with
  | nil => rfl
  | cons value values ih =>
    rw [List.map_cons, List.mapM_cons, ih]
    rfl

/-- All tokens of a script, where they are read one after the other up to its end. -/
lemma tokenize_eq {options : Options} {source : String} {tokens : List Token}
    {last : Lexer} {fresh : Bool} (reads : (Lexer.ofText source).Reads options tokens last)
    (stands : last.Stands fresh [] []) :
    ∃ marker, tokenize options source = .ok (tokens ++ [marker]) ∧ marker.kind = .endMarker := by
  obtain ⟨marker, behind, ends, kind⟩ := Lexer.next_end stands
  refine ⟨marker, ?_, kind⟩
  rw [tokenize, Scriptlet.readings, reads.readings ends kind (Nat.lt_succ_self _), mapM_ok]

end Scriptlet
