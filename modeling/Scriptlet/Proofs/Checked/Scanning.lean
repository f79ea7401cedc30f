import Scriptlet.Proofs.Checked.Scanner
import Scriptlet.Proofs.Lexer.Spelling

/-!
# Scanners read what lexers read

A pass skips what the gap starts with that the lexer skips as a whole, and every cut is made between
characters: the bytes in front of a scanner are those of the characters that the lexer has left
behind.
-/

namespace Scriptlet

open String (utf8Len)

/-- The bytes that are counted are those of the characters that are read. -/
lemma measureQuoted_eq (value : List Char) (bytes : Nat) (text : List Char) :
    measureQuoted false value bytes text =
      (readQuoted text).map fun read => (value ++ read.1, bytes + utf8Len read.2.1) := by
  fun_induction readQuoted text generalizing value bytes with
  | case1 => rfl
  | case2 rest => simp [measureQuoted]
  | case3 c rest ih =>
    rw [measureQuoted, if_pos rfl, measureQuoted, ih, Option.map_map]
    congr 1
    funext read
    simp [Nat.add_comm, Nat.add_left_comm, Nat.add_assoc]
  | case4 c rest noQuote noEscape ih =>
    rw [measureQuoted]
    by_cases backslash : c = '\\'
    · subst backslash
      cases rest with
      | nil => rfl
      | cons d rest => exact absurd rfl (noEscape d rest rfl)
    · rw [if_neg backslash, if_neg noQuote, ih, Option.map_map]
      congr 1
      funext read
      simp [Nat.add_comm (utf8Len _), Nat.add_assoc]

namespace Lexer

/-- What was skipped is where the gap starts that comes next. -/
structure Skips (options : Options) (lx : Lexer) (skipped rest : List Char) : Prop where
  text : lx.rest = skipped ++ rest
  some : skipped ≠ []
  gap : lx.gapAhead options =
    (skipped ++ ((lx.move skipped rest).gapAhead options).1,
      ((lx.move skipped rest).gapAhead options).2)

variable {options : Options} {lx : Lexer} {spaced : Bool} {skipped rest : List Char}

/-- What is skipped makes no difference but that the next token is spaced. -/
lemma Skips.ordinary (skips : Skips options lx skipped rest) :
    lx.ordinary options spaced = (lx.move skipped rest).ordinary options true := by
  have filled : (skipped ++ ((lx.move skipped rest).gapAhead options).1).isEmpty = false := by
    simp [skips.some]
  rw [ordinary_eq, ordinary_eq, skips.gap, move_move]
  dsimp only
  rw [filled, Bool.not_false, Bool.or_true, Bool.true_or]

/-- Blanks within a line are skipped. -/
lemma skips_blanks (blank : lx.rest.takeWhile isInlineBlank ≠ []) :
    Skips options lx (lx.rest.takeWhile isInlineBlank) (lx.rest.dropWhile isInlineBlank) where
  text := List.takeWhile_append_dropWhile.symm
  some := blank
  gap := readGap_blanks ..

/-- A line feed that separates nothing is skipped. -/
lemma skips_feed {text : List Char} (here : lx.rest = '\n' :: text)
    (free : (!options.newlineSeparates || lx.inParens) = true) :
    Skips options lx ['\n'] text where
  text := here
  some := List.cons_ne_nil _ _
  gap := by
    rw [gapAhead, here, readGap, if_pos rfl, free, if_pos rfl, ← free]
    rfl

/-- A comment is skipped up to the end of its line. -/
lemma skips_comment {text : List Char} (here : lx.rest = '#' :: text)
    (comments : options.comments = true) :
    Skips options lx ('#' :: text.takeWhile (· != '\n')) (text.dropWhile (· != '\n')) where
  text := by rw [here, List.cons_append, List.takeWhile_append_dropWhile]
  some := List.cons_ne_nil _ _
  gap := by
    have unspaced : Text.isBlank '#' = false := by decide
    rw [gapAhead, here, readGap, if_neg (by simp), unspaced, if_neg (by simp),
      if_pos (by simp [comments]), readGap_comment]
    rfl

/-- Where nothing is to be skipped, a token starts. -/
lemma ordinary_of_gapAhead (stops : lx.gapAhead options = ([], lx.rest)) :
    lx.ordinary options spaced = lx.symbol options spaced := by
  rw [ordinary_eq, stops]
  show lx.symbol options (spaced || false) = _
  rw [Bool.or_false]

/-- Where no blanks are ahead, nothing is behind them. -/
lemma afterBlanks_of_bare (bare : lx.rest.takeWhile isInlineBlank = []) : lx.afterBlanks = lx := by
  have left : lx.rest.dropWhile isInlineBlank = lx.rest := by
    have whole : lx.rest.takeWhile isInlineBlank ++ lx.rest.dropWhile isInlineBlank = lx.rest :=
      List.takeWhile_append_dropWhile
    rwa [bare] at whole
  rw [afterBlanks, bare, left]
  rfl

/-- Blanks that are passed make the text shorter. -/
lemma length_afterBlanks (blank : lx.rest.takeWhile isInlineBlank ≠ []) :
    lx.afterBlanks.rest.length < lx.rest.length := by
  have whole : lx.rest = lx.rest.takeWhile isInlineBlank ++ lx.afterBlanks.rest :=
    List.takeWhile_append_dropWhile.symm
  have filled := List.length_pos_iff.2 blank
  have lengths := congrArg List.length whole
  rw [List.length_append] at lengths
  omega

/-- Behind the blanks are no blanks. -/
lemma bare_afterBlanks : lx.afterBlanks.rest.takeWhile isInlineBlank = [] := by
  show (lx.rest.dropWhile isInlineBlank).takeWhile isInlineBlank = []
  have stops := List.head?_dropWhile_not isInlineBlank lx.rest
  cases left : lx.rest.dropWhile isInlineBlank with
  | nil => rfl
  | cons c rest =>
    rw [left] at stops
    exact List.takeWhile_cons_of_neg (by simpa using stops)

end Lexer

namespace Scanner

/-- The scanner stands where the lexer does. A trigger that waits for literals waits for one at
least. -/
structure Stands (s : Scanner) (lx : Lexer) : Prop where
  text : ∃ front, s.source = front ++ lx.rest ∧ s.position = utf8Len front ∧
    lx.offset = front.length
  location : s.location = lx.location
  brackets : s.brackets = lx.brackets
  verbatim : s.verbatim = lx.verbatim
  atStatement : s.atStatement = lx.atStatement
  waits : s.verbatim ≠ .awaiting 0

/-- The scanner behind a text that comes next. -/
def move (s : Scanner) (taken : List Char) : Scanner :=
  { s with position := s.position + utf8Len taken, location := s.location.after taken }

/-- The pass finds what the lexer reads, and leaves the scanner where the lexer is left. -/
def Finds (pass : Option (Pass × Scanner)) (reading : Except LexError Token × Lexer) : Prop :=
  ∃ s, pass = some (.found reading.1, s) ∧ s.Stands reading.2

/-- The passes come to what the lexer reads, and leave the scanner where the lexer is left. -/
def Arrives (passes : Option (Except LexError Token × Scanner))
    (reading : Except LexError Token × Lexer) : Prop :=
  ∃ s, passes = some (reading.1, s) ∧ s.Stands reading.2

variable {options : Options} {s : Scanner} {lx : Lexer} {spaced : Bool} {taken rest : List Char}

/-- At the start of a text, both stand at its first character. -/
lemma ofText_stands (source : String) : (ofText source).Stands (.ofText source) where
  text := ⟨[], rfl, by simp [ofText], rfl⟩
  location := rfl
  brackets := rfl
  verbatim := rfl
  atStatement := rfl
  waits := nofun

namespace Stands

/-- The text ahead is there to be looked at. -/
lemma rest? (stands : s.Stands lx) : s.rest? = some lx.rest := by
  obtain ⟨front, source, position, -⟩ := stands.text
  rw [Scanner.rest?, source, position, Bytes.behind?_append]

/-- Both tell alike whether they are at the start of the text. -/
lemma start (stands : s.Stands lx) : (s.position == 0) = (lx.offset == 0) := by
  obtain ⟨front, -, position, offset⟩ := stands.text
  rw [position, offset]
  cases front with
  | nil => simp
  | cons c front => simp [Nat.ne_of_gt c.utf8Size_pos]

/-- Both tell alike whether they are between parentheses. -/
lemma inParens (stands : s.Stands lx) : s.inParens = lx.inParens :=
  congrArg (fun brackets => Lexer.inParens { lx with brackets }) stands.brackets

/-- To move over characters that are ahead fails nowhere. -/
lemma advance? (stands : s.Stands lx) (here : lx.rest = taken ++ rest) :
    s.advance? (utf8Len taken) = some (s.move taken) := by
  obtain ⟨front, source, position, -⟩ := stands.text
  have cut := Bytes.between?_append front taken rest
  rw [← here, ← source, ← position] at cut
  rw [Scanner.advance?, cut]
  rfl

/-- Both move over the same characters alike. -/
lemma move (stands : s.Stands lx) (here : lx.rest = taken ++ rest) :
    (s.move taken).Stands (lx.move taken rest) where
  text := by
    obtain ⟨front, source, position, offset⟩ := stands.text
    refine ⟨front ++ taken, ?_, ?_, ?_⟩
    · rw [List.append_assoc, Scanner.move, source, here]
      rfl
    · rw [Scanner.move, position, String.utf8Len_append]
    · rw [Lexer.move, offset, List.length_append]
  location := congrArg (Location.after · taken) stands.location
  brackets := stands.brackets
  verbatim := stands.verbatim
  atStatement := stands.atStatement
  waits := stands.waits

/-- A token of characters that are ahead is found by both. -/
lemma push? (stands : s.Stands lx) (kind : TokenKind) (lexeme taken : List Char)
    (here : lx.rest = taken ++ rest) :
    Finds (s.push? kind (utf8Len taken) lexeme spaced)
      (.ok (lx.emit kind lexeme taken rest spaced).1,
        (lx.emit kind lexeme taken rest spaced).2) := by
  refine ⟨s.move taken, ?_, stands.move here⟩
  rw [Scanner.push?, stands.advance? here, Lexer.emit, Lexer.move, ← stands.location]
  rfl

/-- Characters that are ahead are skipped. -/
lemma skip? (stands : s.Stands lx) (taken : List Char) (here : lx.rest = taken ++ rest) :
    s.skip? (utf8Len taken) = some (.again true, s.move taken) := by
  rw [Scanner.skip?, stands.advance? here]
  rfl

/-- Both note an opening bracket. -/
lemma openBracket (stands : s.Stands lx) (bracket : Bracket) :
    (s.openBracket bracket).Stands (lx.openBracket bracket) where
  text := stands.text
  location := stands.location
  brackets := by rw [Scanner.openBracket, Lexer.openBracket, stands.brackets, stands.location]
  verbatim := stands.verbatim
  atStatement := stands.atStatement
  waits := stands.waits

/-- Both accept the same closing bracket, and report the same fault of any other. -/
lemma closeBracket (stands : s.Stands lx) (bracket : Bracket) :
    (s.closeBracket bracket).1 = (lx.closeBracket bracket).1 ∧
      (s.closeBracket bracket).2.Stands (lx.closeBracket bracket).2 := by
  rw [Scanner.closeBracket, Lexer.closeBracket, stands.brackets, stands.location]
  cases inside : lx.brackets with
  | nil => exact ⟨rfl, stands⟩
  | cons =>
    exact ⟨rfl, stands.text, rfl, rfl, stands.verbatim, stands.atStatement, stands.waits⟩

/-- At the end of the text both find its marker, or report what is still open. -/
lemma atEnd? (stands : s.Stands lx) :
    Finds (s.atEnd? spaced) (lx.atEnd spaced) := by
  rw [Scanner.atEnd?, Lexer.atEnd, stands.brackets]
  cases inside : lx.brackets with
  | cons => exact ⟨s, rfl, stands⟩
  | nil =>
    rw [← String.utf8Len_nil]
    exact stands.push? .endMarker [] [] rfl

/-- A closing bracket ends what is open, or is a fault. -/
lemma closing? (stands : s.Stands lx) (bracket : Bracket) {c : Char} (here : lx.rest = c :: rest) :
    Finds
      (match s.closeBracket bracket with
        | (some error, s) => some (.found (.error error), s)
        | (none, s) => s.push? bracket.closer (utf8Len [c]) [c] spaced)
      (lx.closing bracket c rest spaced) := by
  obtain ⟨same, closed⟩ := stands.closeBracket bracket
  rw [Lexer.closing]
  have kept : (lx.closeBracket bracket).2.rest = [c] ++ rest := by
    rw [Lexer.closeBracket]
    split <;> exact here
  revert same closed kept
  generalize s.closeBracket bracket = left
  generalize lx.closeBracket bracket = right
  obtain ⟨error, s⟩ := left
  obtain ⟨error', lx⟩ := right
  rintro (rfl : error = error') closed kept
  cases error with
  | some error => exact ⟨s, rfl, closed⟩
  | none => exact closed.push? bracket.closer [c] [c] kept

/-- A quoted literal is read alike up to its closing quote, or to the end of the text. -/
lemma quoted? (stands : s.Stands lx) {text : List Char} (here : lx.rest = '"' :: text)
    (quotes : options.quotes) : Finds (s.quoted? spaced) (lx.symbol options spaced) := by
  have inner : Bytes.behind? 1 lx.rest = some text := by
    rw [here]
    exact Bytes.behind?_append ['"'] text
  rw [Scanner.quoted?, stands.rest?, Option.bind_eq_bind, Option.bind_some, inner, Option.bind_some,
    measureQuoted_eq]
  match read : readQuoted text with
  | none =>
    have reads : lx.symbol options spaced = (.error ⟨.unterminated, lx.location⟩, lx) := by
      simp [Lexer.symbol, here, quotes, read]
    rw [reads, stands.location]
    exact ⟨s, rfl, stands⟩
  | some (value, taken, rest) =>
    have reads : lx.symbol options spaced =
        (.ok (lx.emit .quoted value ('"' :: taken) rest spaced).1,
          (lx.emit .quoted value ('"' :: taken) rest spaced).2) := by
      simp [Lexer.symbol, here, quotes, read]
    rw [reads]
    have split : lx.rest = ('"' :: taken) ++ rest := by
      rw [here, (readQuoted_unescapes read).1]
      rfl
    have pushed : Finds (s.push? .quoted _ value spaced) _ := stands.push? .quoted value _ split
    rwa [String.utf8Len_cons, Nat.add_comm] at pushed

/-- A token that starts with a sign, or with the character of a literal, is found by both. -/
lemma sign? (stands : s.Stands lx) {c : Char} {text : List Char} (here : lx.rest = c :: text)
    (feed : c ≠ '\n') (quote : ¬ (options.quotes ∧ c = '"')) :
    Finds (s.sign? options lx.rest spaced) (lx.symbol options spaced) := by
  have finds : ∀ (lexeme : List Char) {rest : List Char} {kind : TokenKind},
      lx.rest = lexeme ++ rest →
      (signTokens.find? fun sign => sign.1.isPrefixOf lx.rest) = some (lexeme, kind) →
      s.trackBracket kind = (none, s) →
      Finds (s.sign? options lx.rest spaced)
        (.ok (lx.emit kind lexeme lexeme rest spaced).1,
          (lx.emit kind lexeme lexeme rest spaced).2) := by
    intro lexeme rest kind same sign unnested
    rw [Scanner.sign?, sign]
    dsimp only
    rw [unnested]
    exact stands.push? kind lexeme lexeme same
  -- the lexer has a pattern for each sign, where the scanner looks it up, a longer one first
  unfold Lexer.symbol
  split
  case h_1 empty => exact absurd (here.symm.trans empty) nofun
  case h_2 rest same => exact absurd (List.cons.inj (here.symm.trans same)).1 feed
  case h_3 rest same => exact finds ['$', '^'] same (by rw [same]; rfl) rfl
  case h_4 rest other same =>
    have alone : (signTokens.find? fun sign => sign.1.isPrefixOf lx.rest) =
        some (['$'], .dollar) := by
      rw [same]
      cases rest with
      | nil => rfl
      | cons d rest =>
        have caret : '^' ≠ d := fun caret => other rest (caret ▸ rfl)
        simp [signTokens, caret]
    exact finds ['$'] same alone rfl
  case h_5 rest same => exact finds ['^'] same (by rw [same]; rfl) rfl
  case h_6 rest same => exact finds ['!'] same (by rw [same]; rfl) rfl
  case h_7 rest same => exact finds [';'] same (by rw [same]; rfl) rfl
  case h_8 rest same =>
    rw [Scanner.sign?, same]
    exact (stands.openBracket .paren).push? .openParen ['('] ['('] same
  case h_9 rest same =>
    rw [Scanner.sign?, same]
    exact stands.closing? .paren same
  case h_10 rest same =>
    rw [Scanner.sign?, same]
    exact (stands.openBracket .brace).push? .openBrace ['\x7b'] ['\x7b'] same
  case h_11 rest same =>
    rw [Scanner.sign?, same]
    exact stands.closing? .brace same
  case h_12 d rest _ _ dollar caret bang semi opens closes opens' closes' same =>
    have unsigned : (signTokens.find? fun sign => sign.1.isPrefixOf lx.rest) = none := by
      rw [same]
      simp [signTokens, Ne.symm dollar, Ne.symm caret, Ne.symm bang, Ne.symm semi, Ne.symm opens,
        Ne.symm closes, Ne.symm opens', Ne.symm closes']
    obtain ⟨rfl, rfl⟩ := List.cons.inj (here.symm.trans same)
    have unquoted : (options.quotes && decide (c = '"')) = false := by simpa using quote
    have whole : lx.rest =
        lx.rest.takeWhile options.isLiteral ++ lx.rest.dropWhile options.isLiteral :=
      List.takeWhile_append_dropWhile.symm
    rw [Scanner.sign?, unsigned, unquoted, ← same, List.span_eq_takeWhile_dropWhile]
    revert whole
    generalize lx.rest.takeWhile options.isLiteral = taken
    generalize lx.rest.dropWhile options.isLiteral = left
    intro whole
    cases taken with
    | nil =>
      rw [same, stands.location]
      exact ⟨s, rfl, stands⟩
    | cons d taken => exact stands.push? .literal _ _ whole

/-- Blanks are skipped first, whatever comes behind them. -/
lemma pass?_blanks (stands : s.Stands lx) (blank : lx.rest.takeWhile isInlineBlank ≠ []) :
    s.pass? options spaced =
        some (.again true, s.move (lx.rest.takeWhile isInlineBlank)) ∧
      (s.move (lx.rest.takeWhile isInlineBlank)).Stands lx.afterBlanks := by
  have whole : lx.rest = lx.rest.takeWhile isInlineBlank ++ lx.rest.dropWhile isInlineBlank :=
    List.takeWhile_append_dropWhile.symm
  refine ⟨?_, stands.move whole⟩
  rw [Scanner.pass?, stands.rest?, Option.bind_eq_bind, Option.bind_some,
    if_pos (by simpa using blank)]
  exact stands.skip? _ whole

/-- A pass in a gap skips some of it; behind the gap it finds the token. -/
lemma pass? (options : Options) (spaced : Bool) (stands : s.Stands lx)
    (later : s.verbatim ≠ .now) :
    (∃ skipped rest, lx.Skips options skipped rest ∧
        s.pass? options spaced = some (.again true, s.move skipped)) ∨
      lx.gapAhead options = ([], lx.rest) ∧
        Finds (s.pass? options spaced) (lx.symbol options spaced) := by
  -- blanks, a line feed or a comment are skipped by one pass each; the lexer skips the gap at once
  by_cases blank : lx.rest.takeWhile isInlineBlank = []
  case neg => exact .inl ⟨_, _, Lexer.skips_blanks blank, (stands.pass?_blanks blank).1⟩
  rw [Scanner.pass?, stands.rest?, Option.bind_eq_bind, Option.bind_some, if_neg (by simp [blank]),
    if_neg later]
  match here : lx.rest with
  | [] =>
    refine .inr ⟨by rw [Lexer.gapAhead, here]; rfl, ?_⟩
    rw [Lexer.symbol, here]
    exact stands.atEnd?
  | c :: text =>
    rw [here] at blank
    have unblank : isInlineBlank c = false := by
      cases inline : isInlineBlank c with
      | false => rfl
      | true => simp [inline] at blank
    rw [if_neg (by simp), List.head?_cons]
    by_cases feed : c = '\n'
    · subst feed
      rw [if_pos rfl, stands.inParens]
      cases free : !options.newlineSeparates || lx.inParens with
      | true => exact .inl ⟨['\n'], text, Lexer.skips_feed here free, stands.skip? ['\n'] here⟩
      | false =>
        refine .inr ⟨by rw [Lexer.gapAhead, here, readGap, if_pos rfl, free]; rfl, ?_⟩
        rw [Lexer.symbol, here]
        exact stands.push? .separator ['\n'] ['\n'] here
    have unspaced : Text.isBlank c = false := by simpa [isInlineBlank, feed] using unblank
    rw [if_neg (by simpa using feed)]
    cases hash : options.comments && decide (c = '#') with
    | true =>
      obtain ⟨comments, rfl⟩ : options.comments ∧ c = '#' := by simpa using hash
      have skips := Lexer.skips_comment here comments
      rw [if_pos (by simpa using comments)]
      exact .inl ⟨_, _, skips, stands.skip? _ skips.text⟩
    | false =>
      have plain : lx.gapAhead options = ([], lx.rest) := by
        rw [Lexer.gapAhead, here, readGap, if_neg feed, unspaced, hash]
        rfl
      rw [← here]
      refine .inr ⟨plain, ?_⟩
      rw [if_neg (by simpa using hash)]
      by_cases quote : options.quotes ∧ c = '"'
      · obtain ⟨quotes, rfl⟩ := quote
        rw [if_pos (by simp [quotes])]
        exact stands.quoted? here quotes
      · rw [if_neg (by simpa using quote)]
        exact stands.sign? here feed quote

/-- Where verbatim text is not waited for, both stand where they stood. -/
lemma off (stands : s.Stands lx) :
    { s with verbatim := .off }.Stands { lx with verbatim := .off } where
  text := stands.text
  location := stands.location
  brackets := stands.brackets
  verbatim := rfl
  atStatement := stands.atStatement
  waits := nofun

/-- Passes in front of an ordinary token: each takes something, until the token is found. -/
lemma passes?_ordinary (stands : s.Stands lx) (later : s.verbatim ≠ .now) {count : Nat}
    (enough : lx.rest.length < count) :
    Arrives (s.passes? options count spaced) (lx.ordinary options spaced) := by
  induction count generalizing s lx spaced with
  | zero => cases enough
  | succ count ih =>
    rw [passes?]
    obtain ⟨skipped, rest, skips, passed⟩ | ⟨stops, s', passed, arrived⟩ :=
      stands.pass? options spaced later
    · rw [passed, skips.ordinary]
      have shorter : rest.length < count := by
        have filled := List.length_pos_iff.2 skips.some
        have whole := congrArg List.length skips.text
        rw [List.length_append] at whole
        omega
      exact ih (stands.move skips.text) later shorter
    · rw [passed, Lexer.ordinary_of_gapAhead stops]
      exact ⟨s', rfl, arrived⟩

/-- A pass in front of verbatim text takes it, or gives it up if it is blank. -/
lemma pass?_verbatim (stands : s.Stands lx) (now : s.verbatim = .now)
    (bare : lx.rest.takeWhile isInlineBlank = []) :
    s.pass? options spaced =
      let taken := lx.rest.takeWhile options.isVerbatim
      let lexeme := Text.dropBlanksEnd taken
      if lexeme.isEmpty then some (.again spaced, { s with verbatim := .off })
      else s.push? .literal (utf8Len taken) lexeme spaced := by
  have cut := Bytes.ahead?_append (lx.rest.takeWhile options.isVerbatim)
    (lx.rest.dropWhile options.isVerbatim)
  rw [List.takeWhile_append_dropWhile] at cut
  rw [Scanner.pass?, stands.rest?, Option.bind_eq_bind, Option.bind_some, if_neg (by simp [bare]),
    if_pos now, verbatimText?, stands.rest?, Option.bind_eq_bind, Option.bind_some]
  dsimp only
  rw [cut]
  rfl

/-- Text that is taken as it is is taken alike, in one pass. -/
lemma passes?_verbatim (options : Options) (spaced : Bool) (stands : s.Stands lx)
    (now : s.verbatim = .now) (bare : lx.rest.takeWhile isInlineBlank = []) {count : Nat}
    (enough : lx.rest.length + 1 < count) :
    Arrives (s.passes? options count spaced)
      (let taken := lx.rest.takeWhile options.isVerbatim
      let lexeme := Text.dropBlanksEnd taken
      if lexeme.isEmpty then { lx with verbatim := .off }.ordinary options spaced
      else
        (.ok (lx.emit .literal lexeme taken (lx.rest.dropWhile options.isVerbatim) spaced).1,
          (lx.emit .literal lexeme taken (lx.rest.dropWhile options.isVerbatim) spaced).2)) := by
  obtain ⟨count, rfl⟩ := Nat.exists_eq_add_one.2 (Nat.zero_lt_of_lt enough)
  rw [passes?, stands.pass?_verbatim now bare]
  dsimp only
  split
  · exact stands.off.passes?_ordinary nofun (Nat.lt_of_succ_lt_succ enough)
  · obtain ⟨s', pushed, arrived⟩ := stands.push? .literal _ _ List.takeWhile_append_dropWhile.symm
    rw [pushed]
    exact ⟨s', rfl, arrived⟩

/-- With as many passes as there are characters ahead, both arrive at the same token. -/
lemma scan (options : Options) (stands : s.Stands lx) {count : Nat}
    (enough : lx.rest.length + 1 < count) :
    Arrives (s.passes? options count (s.position == 0)) (lx.scan options) := by
  rw [stands.start]
  by_cases now : s.verbatim = .now
  · have same : lx.verbatim = .now := stands.verbatim ▸ now
    rw [Lexer.scan_now same]
    by_cases bare : lx.rest.takeWhile isInlineBlank = []
    · have read := stands.passes?_verbatim options (lx.offset == 0) now bare enough
      rw [Lexer.verbatimText, Lexer.blanksSpaced, Lexer.afterBlanks_of_bare bare, bare]
      simpa using read
    · obtain ⟨count, rfl⟩ := Nat.exists_eq_add_one.2 (Nat.zero_lt_of_lt enough)
      obtain ⟨passed, arrived⟩ := stands.pass?_blanks bare
      have shorter := Lexer.length_afterBlanks bare
      have filled : lx.blanksSpaced = true := by simp [Lexer.blanksSpaced, bare]
      rw [passes?, passed, filled]
      exact arrived.passes?_verbatim options true now Lexer.bare_afterBlanks (by omega)
  · rw [Lexer.scan_ordinary (stands.verbatim ▸ now)]
    exact stands.passes?_ordinary now (Nat.lt_of_succ_lt enough)

/-- Both keep count of the triggers alike. -/
lemma trackTriggers (options : Options) (stands : s.Stands lx) (token : Token) :
    ∃ s', s.trackTriggers? options token = some s' ∧
      s'.Stands (lx.trackTriggers options token) := by
  rw [trackTriggers?, Lexer.trackTriggers, stands.verbatim]
  have waits := stands.waits
  rw [stands.verbatim] at waits
  have moved : ∀ (mode : Verbatim) {first first' : Bool}, first = first' → mode ≠ .awaiting 0 →
      Stands { s with verbatim := mode, atStatement := first }
        { lx with verbatim := mode, atStatement := first' } :=
    fun mode _ _ first waits => ⟨stands.text, stands.location, stands.brackets, rfl, first, waits⟩
  have closed : Verbatim.off ≠ .awaiting 0 := by simp
  have due : Verbatim.now ≠ .awaiting 0 := by simp
  -- no countdown is ever at zero, where the scanner could not count on
  cases mode : lx.verbatim with
  | now => exact ⟨_, rfl, moved .off rfl closed⟩
  | off =>
    rw [stands.atStatement]
    cases token.kind
    case separator | openBrace | closeBrace | closeParen => exact ⟨_, rfl, moved .off rfl closed⟩
    all_goals
      refine ⟨_, rfl, moved _ rfl ?_⟩
      split
      · exact closed
      · exact due
      · simp_all
  | awaiting count =>
    dsimp only
    split
    case isTrue =>
      by_cases last : count = 1
      · rw [if_pos last, if_pos last]
        exact ⟨_, rfl, moved .now stands.atStatement due⟩
      · have left : count ≠ 0 := fun used => waits (by rw [mode, used])
        rw [if_neg last, if_neg last, if_neg left]
        refine ⟨_, rfl, moved (.awaiting (count - 1)) stands.atStatement fun same => ?_⟩
        have left := Verbatim.awaiting.inj same
        omega
    case isFalse => exact ⟨_, rfl, moved .off rfl closed⟩

/-- The scanner stands in its source. -/
lemma length_rest_le (stands : s.Stands lx) : lx.rest.length ≤ s.source.length := by
  obtain ⟨front, source, -⟩ := stands.text
  rw [source, List.length_append]
  exact Nat.le_add_left ..

/-- The next token is the same, and both stand alike behind it. -/
lemma next (options : Options) (stands : s.Stands lx) :
    Arrives (s.next? options) (lx.next options) := by
  obtain ⟨s', read, arrived⟩ :=
    stands.scan options (Nat.add_lt_add_right (Nat.lt_succ_of_le stands.length_rest_le) 1)
  rw [next?, Lexer.next]
  revert read arrived
  obtain ⟨error | token, last⟩ := lx.scan options
  · intro read arrived
    rw [read]
    exact ⟨s', rfl, arrived⟩
  · intro read arrived
    obtain ⟨s'', tracked, followed⟩ := arrived.trackTriggers options token
    rw [read]
    refine ⟨s'', ?_, followed⟩
    simp [tracked]

/-- The readings are those of the lexer. -/
lemma pull? (options : Options) (stands : s.Stands lx) (n : Nat) :
    s.pull? options n = some (lx.pull options n) := by
  induction n generalizing s lx with
  | zero => rfl
  | succ n ih =>
    obtain ⟨s', read, arrived⟩ := stands.next options
    rw [Scanner.pull?, read, Option.bind_eq_bind, Option.bind_some]
    dsimp only
    rw [ih arrived]
    rfl

end Stands

end Scanner

end Scriptlet
