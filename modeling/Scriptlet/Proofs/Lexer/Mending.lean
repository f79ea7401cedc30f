import Scriptlet.Proofs.Lexer.Extension

/-!
# What more text can mend

A text that ends inside brackets or inside a quoted literal can be continued to a script that is
split without a fault: a quote ends the literal, a line feed the comment or the verbatim text, and
the brackets are closed. No text behind it mends any other fault. So a text is told to be incomplete
exactly if it can be completed.
-/

namespace Scriptlet

variable {options : Options} {text rest more : List Char}

/-- Where no quote ends a quoted literal, one does behind the text, or behind one that is escaped.
-/
lemma readQuoted_open (unclosed : readQuoted text = none) :
    ∃ tail value, Unescapes (text ++ tail) value := by
  fun_induction readQuoted text with
  | case1 => exact ⟨[], [], .nil⟩
  | case2 => cases unclosed
  | case3 c rest ih =>
    obtain ⟨tail, value, unescapes⟩ := ih (Option.map_eq_none_iff.1 unclosed)
    exact ⟨tail, _, .escaped unescapes⟩
  | case4 c rest noQuote noEscape ih =>
    obtain ⟨tail, value, unescapes⟩ := ih (Option.map_eq_none_iff.1 unclosed)
    by_cases backslash : c = '\\'
    · subst backslash
      cases rest with
      | nil => exact ⟨['"'], _, .escaped .nil⟩
      | cons d rest => exact absurd rfl (noEscape d rest rfl)
    · exact ⟨tail, _, .plain noQuote backslash unescapes⟩

namespace Lexer

variable {lx last : Lexer} {spaced : Bool} {result : Except LexError Token} {token : Token}
  {error : LexError}

/-- A bracket that closes nothing is not taken, and no more text makes it right. -/
lemma closing_error {bracket : Bracket} {c : Char}
    (read : lx.closing bracket c rest spaced = (.error error, last)) :
    (last.rest = lx.rest ∧ last.location = lx.location) ∧ error.fault.isIncomplete = false := by
  match inside : lx.brackets with
  | [] =>
    simp only [closing, closeBracket, inside] at read
    cases read
    exact ⟨⟨rfl, rfl⟩, rfl⟩
  | (opened, openedAt) :: outer =>
    by_cases same : opened = bracket
    · subst same
      rw [closing_eq inside] at read
      cases read
    · simp only [closing, closeBracket, inside, same, if_false] at read
      cases read
      exact ⟨⟨rfl, rfl⟩, rfl⟩

/-- The text ends where a token is missing, or inside a quoted literal. -/
lemma symbol_incomplete (read : lx.symbol options spaced = (.error error, last))
    (incomplete : error.fault.isIncomplete) :
    lx.rest = [] ∨
      ∃ body, lx.rest = '"' :: body ∧ options.quotes ∧ readQuoted body = none := by
  rw [symbol] at read
  split at read
  case h_1 here => exact .inl here
  case h_9 | h_11 =>
    rw [(closing_error read).2] at incomplete
    cases incomplete
  case h_12 c rest _ _ _ _ _ _ _ _ _ _ here =>
    split at read
    case isTrue quote =>
      obtain ⟨quotes, rfl⟩ : options.quotes = true ∧ c = '"' := by simpa using quote
      split at read
      case h_1 unclosed => exact .inr ⟨rest, here, quotes, unclosed⟩
      case h_2 => cases read
    case isFalse =>
      split at read
      case h_1 =>
        cases read
        cases incomplete
      case h_2 => cases read
  all_goals cases read

/-- The lexer where the next ordinary token is read: blank verbatim text is given up. -/
def plain (lx : Lexer) : Lexer :=
  if lx.verbatim = .now then { lx.afterBlanks with verbatim := .off } else lx

/-- Whether an ordinary token that is read next is spaced if no gap is in front of it. -/
def plainSpaced (lx : Lexer) : Bool :=
  if lx.verbatim = .now then lx.blanksSpaced else lx.offset == 0

/-- Nothing is read as verbatim text. -/
def Plain (options : Options) (lx : Lexer) : Prop :=
  lx.verbatim = .now → Text.dropBlanksEnd (lx.verbatimText options) = []

/-- To read plainly closes no bracket. -/
lemma plain_brackets : lx.plain.brackets = lx.brackets := by
  rw [plain]
  split <;> rfl

/-- Verbatim text that is blank is passed over. -/
lemma plain_rest :
    lx.plain.rest = if lx.verbatim = .now then lx.rest.dropWhile isInlineBlank else lx.rest := by
  rw [plain]
  split <;> rfl

/-- Where a token is ahead, there is text. -/
lemma plain_left (left : (lx.plain.gapAhead options).2 ≠ []) :
    lx.plain.rest ≠ [] ∧ lx.rest ≠ [] := by
  have filled : lx.plain.rest ≠ [] := by
    intro done
    have whole := gapAhead_append options lx.plain
    rw [done, List.append_eq_nil_iff] at whole
    exact left whole.2
  refine ⟨filled, fun done => filled ?_⟩
  rw [plain_rest, done]
  split <;> rfl

/-- A plain lexer reads a token behind a gap. -/
lemma Plain.scan (plain : lx.Plain options) :
    lx.scan options = lx.plain.ordinary options lx.plainSpaced := by
  by_cases now : lx.verbatim = .now
  · rw [scan_now now, if_pos (List.isEmpty_iff.2 (plain now)), Lexer.plain, plainSpaced, if_pos now,
      if_pos now]
  · rw [scan_ordinary now, Lexer.plain, plainSpaced, if_neg now, if_neg now]

/-- A fault is read plainly. -/
lemma Plain.of_error (read : lx.scan options = (.error error, last)) : lx.Plain options := by
  intro now
  rw [scan_now now] at read
  split at read
  case isTrue blank => exact List.isEmpty_iff.1 blank
  case isFalse => cases read

/-- A plain lexer stays plain when more text is there. -/
lemma Plain.extend (toLine : options.verbatimToEnd = false) (plain : lx.Plain options)
    (left : lx.plain.rest ≠ [] ∨ EndsLine more) :
    (lx.extend more).scan options = (lx.plain.extend more).ordinary options lx.plainSpaced := by
  by_cases now : lx.verbatim = .now
  · have nothing := verbatimText_blank toLine (plain now)
    have left : lx.afterBlanks.rest ≠ [] ∨ EndsLine more := by
      rwa [Lexer.plain, if_pos now] at left
    have same := verbatimText_extend toLine left (by rwa [verbatimText_left nothing])
    have behind := afterBlanks_extend left
    have blank : Text.dropBlanksEnd ((lx.extend more).verbatimText options) = [] := by
      rw [same.1]
      exact plain now
    have later : (lx.extend more).verbatim = .now := now
    rw [scan_now later, if_pos (List.isEmpty_iff.2 blank), behind.1, behind.2,
      Lexer.plain, plainSpaced, if_pos now, if_pos now]
    rfl
  · have later : (lx.extend more).verbatim ≠ .now := now
    rw [scan_ordinary later, Lexer.plain, plainSpaced, if_neg now, if_neg now]
    rfl

/-- No trigger is open behind a token that is no plain literal. -/
lemma trackTriggers_off (kind : token.kind ≠ .literal) :
    (lx.trackTriggers options token).verbatim = .off := by
  rw [trackTriggers]
  split
  case h_1 off =>
    split
    any_goals exact off
    rw [if_neg (by simp [kind])]
  case h_2 => rw [if_neg kind]
  case h_3 => rfl

/-- The text that closes the brackets, innermost first. -/
def closers (brackets : List (Bracket × Location)) : List Char :=
  brackets.map fun opened => opened.1.closeSign

/-- The text that mends a text with these brackets open: the comment or the verbatim text at its end
is ended, and so is the statement. -/
def mending (brackets : List (Bracket × Location)) : List Char :=
  '\n' :: ';' :: closers brackets

/-- The rest of the text is read without a fault. -/
def Mended (options : Options) (lx : Lexer) : Prop :=
  ∃ tokens last marker, Reads options lx tokens last ∧ last.Halts options (.ok marker)

/-- What can be mended behind a token can be mended before it. -/
lemma Mended.cons (read : lx.next options = (.ok token, last)) (inner : token.kind ≠ .endMarker)
    (mended : last.Mended options) : lx.Mended options := by
  obtain ⟨tokens, behind, marker, reads, ends⟩ := mended
  exact ⟨token :: tokens, behind, marker, .cons read inner (next_shorter read inner) reads, ends⟩

/-- Brackets are mended by what closes them. -/
lemma Stands.closed {fresh : Bool} {brackets : List (Bracket × Location)}
    (stands : lx.Stands fresh brackets (closers brackets)) : lx.Mended options := by
  induction brackets generalizing lx fresh with
  | nil =>
    obtain ⟨marker, last, ends, kind⟩ := next_end stands
    exact ⟨[], lx, marker, .nil, .ends ends kind⟩
  | cons opened brackets ih =>
    obtain ⟨bracket, openedAt⟩ := opened
    have here : lx.Stands fresh ((bracket, openedAt) :: brackets)
        (space false ++ bracket.closeSign :: closers brackets) := stands
    obtain ⟨token, mid, takes⟩ := takes_closer options bracket here
    refine .cons takes.next ?_ (ih takes.stands)
    rw [takes.kind]
    cases bracket <;> decide

/-- A line feed and a semicolon are separators. -/
lemma symbol_separator {c : Char} (here : lx.rest = c :: rest) (separates : c = '\n' ∨ c = ';') :
    lx.symbol options spaced =
      (.ok (lx.emit .separator [c] [c] rest spaced).1,
        (lx.emit .separator [c] [c] rest spaced).2) := by
  obtain ⟨text, offset, location, brackets, verbatim, atStatement⟩ := lx
  subst here
  obtain rfl | rfl := separates
  · rfl
  · rfl

/-- What is left behind a separator is read with no trigger open. -/
lemma Mended.separator {c : Char} {start : Lexer}
    (scanned : lx.scan options = start.symbol options spaced) (here : start.rest = c :: rest)
    (separates : c = '\n' ∨ c = ';')
    (behind : ∀ {last : Lexer} {fresh : Bool}, last.Stands fresh start.brackets rest →
      last.Mended options) : lx.Mended options := by
  rw [symbol_separator here separates] at scanned
  have off : ((start.emit .separator [c] [c] rest spaced).2.trackTriggers options
      (start.emit .separator [c] [c] rest spaced).1).verbatim = .off :=
    trackTriggers_off (show TokenKind.separator ≠ .literal by simp)
  refine .cons (by rw [Lexer.next, scanned]) (show TokenKind.separator ≠ .endMarker by simp)
    (behind ⟨rfl, ?_, off, ?_⟩)
  · rw [trackTriggers_brackets]
    rfl
  · rw [trackTriggers_rest]
    rfl

/-- Brackets that are open at the end of the text can be closed. -/
lemma Plain.mended (toLine : options.verbatimToEnd = false) (plain : lx.Plain options)
    (done : (lx.plain.gapAhead options).2 = []) :
    (lx.extend (mending lx.brackets)).Mended options := by
  have ends : EndsLine (mending lx.brackets) := by simp [EndsLine, mending]
  have scanned := plain.extend toLine (.inr ends)
  rw [ordinary_eq] at scanned
  have fed := readGap_feed done (';' :: closers lx.brackets)
  have stops : readGap options.comments (!options.newlineSeparates || lx.plain.inParens) false
      (space false ++ ';' :: closers lx.brackets) = (space false, ';' :: closers lx.brackets) :=
    readGap_space (by decide)
  have gapless : ';' :: closers lx.brackets = space false ++ ';' :: closers lx.brackets := rfl
  rw [gapless, stops] at fed
  have closed : ∀ {last : Lexer} {fresh : Bool},
      last.Stands fresh lx.plain.brackets (closers lx.brackets) → last.Mended options := by
    intro last fresh stands
    rw [plain_brackets] at stands
    exact stands.closed
  split at fed
  case isTrue => exact .separator scanned fed (.inr rfl) closed
  case isFalse =>
    refine .separator scanned fed (.inl rfl) fun stands => ?_
    have here : Stands _ _ lx.plain.brackets (space false ++ ';' :: closers lx.brackets) := stands
    obtain ⟨token, mid, takes⟩ := takes_separator options here
    exact .cons takes.next (by simp [takes.kind]) (closed takes.stands)

/-- Where no verbatim text is waited for, what mends the brackets mends all. -/
lemma Mended.of_off (toLine : options.verbatimToEnd = false) (off : lx.verbatim = .off)
    (here : lx.rest = mending lx.brackets) : lx.Mended options := by
  obtain ⟨text, offset, location, brackets, verbatim, atStatement⟩ := lx
  obtain rfl : verbatim = .off := off
  obtain rfl : text = mending brackets := here
  have plain : (⟨[], offset, location, brackets, .off, atStatement⟩ : Lexer).Plain options := nofun
  exact plain.mended toLine rfl

/-- A fault that tells that the text is incomplete is mended by some text. -/
lemma mended_of_incomplete (toLine : options.verbatimToEnd = false)
    (fails : lx.next options = (.error error, last)) (incomplete : error.fault.isIncomplete) :
    ∃ more, (lx.rest ≠ [] ∨ EndsLine more) ∧ (lx.extend more).Mended options := by
  rw [next_error] at fails
  have plain := Plain.of_error fails
  rw [plain.scan, ordinary_eq] at fails
  obtain done | ⟨body, here, quotes, unclosed⟩ := symbol_incomplete fails incomplete
  · exact ⟨mending lx.brackets, .inr (by simp [EndsLine, mending]), plain.mended toLine done⟩
  · obtain ⟨tail, value, unescapes⟩ := readQuoted_open unclosed
    have ahead : (lx.plain.gapAhead options).2 = '"' :: body := here
    have filled : (lx.plain.gapAhead options).2 ≠ [] := by simp [ahead]
    obtain ⟨left, here⟩ := plain_left filled
    refine ⟨tail ++ '"' :: mending lx.brackets, .inl here, ?_⟩
    have scanned : (lx.extend (tail ++ '"' :: mending lx.brackets)).scan options = _ :=
      plain.extend toLine (.inl left)
    have read := unescapes.read (mending lx.brackets)
    rw [List.append_assoc] at read
    rw [ordinary_eq, gapAhead_extend filled, ahead, List.cons_append,
      symbol_literal rfl (by decide), if_pos (by simp [quotes]), read] at scanned
    refine .cons (by rw [Lexer.next, scanned]) (show TokenKind.quoted ≠ .endMarker by simp)
      (.of_off toLine (trackTriggers_off (show TokenKind.quoted ≠ .literal by simp)) ?_)
    rw [trackTriggers_rest, trackTriggers_brackets]
    exact congrArg mending plain_brackets.symm

/-- Reads token by token until the end marker or the first fault. `room` bounds the number of
readings, each of which but the last takes at least one character. -/
def probe (options : Options) : (room : Nat) → Lexer → Completeness
  | 0, _ => .complete
  | room + 1, lx =>
    match lx.next options with
    | (.error error, _) => if error.fault.isIncomplete then .incomplete else .faulty error
    | (.ok token, lx) => if token.kind = .endMarker then .complete else lx.probe options room

/-- How complete a text is, by what its reading halts with. -/
def verdict : Except LexError Token → Completeness
  | .ok _ => .complete
  | .error error => if error.fault.isIncomplete then .incomplete else .faulty error

/-- A probe comes to the verdict on the reading at which the tokens halt. -/
lemma Reads.probe {tokens : List Token} (reads : Reads options lx tokens last)
    (halts : last.Halts options result) {room : Nat} (enough : lx.rest.length < room) :
    lx.probe options room = verdict result := by
  induction reads generalizing room with
  | nil =>
    obtain _ | room := room
    · cases enough
    rw [Lexer.probe]
    cases halts with
    | ends ends kind =>
      rw [ends]
      exact if_pos kind
    | fails fails =>
      rw [fails]
      rfl
  | cons read inner shorter _ ih =>
    obtain _ | room := room
    · cases enough
    rw [Lexer.probe, read]
    dsimp only
    rw [if_neg inner, ih halts (by omega)]

/-- A fault that is final is met whatever follows it. -/
lemma fault_left (fails : lx.next options = (.error error, last))
    (final : error.fault.isIncomplete = false) : lx.rest ≠ [] := by
  rw [next_error] at fails
  rw [(Plain.of_error fails).scan] at fails
  exact (plain_left (ordinary_left fails final)).2

/-- A longer text is the text with more behind it. -/
lemma ofText_extend (source more : String) :
    (ofText source).extend more.toList = ofText (source ++ more) := by
  rw [ofText, ofText, String.toList_append]
  rfl

end Lexer

variable {source : String} {tokens : List Token} {last : Lexer} {result : Except LexError Token}

/-- Whether a text is complete is the verdict on the reading at which its tokens halt. -/
lemma completeness_halts (reads : (Lexer.ofText source).Reads options tokens last)
    (halts : last.Halts options result) : completeness options source = Lexer.verdict result := by
  rw [completeness]
  cases result with
  | ok marker => rw [tokenize_ends reads halts]; rfl
  | error error => rw [tokenize_fails reads halts]; rfl

/-- More text mends no other fault than that the text is incomplete. -/
lemma faulty_stays (toLine : options.verbatimToEnd = false) {error : LexError}
    (faulty : completeness options source = .faulty error) (more : String) :
    completeness options (source ++ more) = .faulty error := by
  obtain ⟨tokens, last, result, reads, halts⟩ := Lexer.reads_through options (.ofText source)
  rw [completeness_halts reads halts] at faulty
  cases halts with
  | ends => cases faulty
  | @fails other behind fails =>
    rw [Lexer.verdict] at faulty
    split at faulty
    case isTrue => cases faulty
    case isFalse final =>
      cases faulty
      have final : error.fault.isIncomplete = false := by simpa using final
      have longer : Lexer.Reads options ((Lexer.ofText source).extend more.toList) _ _ :=
        reads.extend toLine (.inl (Lexer.fault_left fails final))
      rw [Lexer.ofText_extend] at longer
      rw [completeness_halts longer (.fails (Lexer.next_extend toLine fails final nofun)),
        Lexer.verdict, if_neg (by simp [final])]

/-- An incomplete text can be completed. -/
lemma incomplete_completed (toLine : options.verbatimToEnd = false)
    (incomplete : completeness options source = .incomplete) :
    ∃ more tokens, tokenize options (source ++ more) = .ok tokens := by
  obtain ⟨tokens, last, result, reads, halts⟩ := Lexer.reads_through options (.ofText source)
  rw [completeness_halts reads halts] at incomplete
  cases halts with
  | ends => cases incomplete
  | @fails error behind fails =>
    rw [Lexer.verdict] at incomplete
    split at incomplete
    case isFalse => cases incomplete
    case isTrue early =>
      obtain ⟨more, cut, later, stop, marker, mended, ends⟩ :=
        Lexer.mended_of_incomplete toLine fails early
      have longer := (reads.extend toLine cut).append mended
      rw [← String.toList_ofList (l := more), Lexer.ofText_extend] at longer
      exact ⟨_, _, tokenize_ends longer ends⟩

/-- A text is complete if it can be cut into tokens. -/
lemma complete_iff :
    completeness options source = .complete ↔ ∃ tokens, tokenize options source = .ok tokens := by
  rw [completeness]
  cases tokenize options source with
  | ok tokens => simp
  | error error =>
    dsimp only
    split <;> simp

/-- A text is told to be complete exactly if it is split into tokens, and incomplete exactly if it
is not but some text completes it; any other fault stays the same whatever text follows. The same is
told if the tokens are read one by one up to the first fault. -/
theorem completeness_exact (options : Options) (toLine : options.verbatimToEnd = false)
    (source : String) :
    completeness options source = (Lexer.ofText source).probe options (source.toList.length + 1) ∧
      (completeness options source = .complete ↔ ∃ tokens, tokenize options source = .ok tokens) ∧
      (completeness options source = .incomplete ↔
        (∃ error, tokenize options source = .error error) ∧
          ∃ more tokens, tokenize options (source ++ more) = .ok tokens) ∧
      ∀ error, completeness options source = .faulty error →
        ∀ more, completeness options (source ++ more) = .faulty error := by
  refine ⟨?_, complete_iff, ⟨fun incomplete => ⟨?_, incomplete_completed toLine incomplete⟩, ?_⟩,
    fun _ faulty => faulty_stays toLine faulty⟩
  · obtain ⟨tokens, last, result, reads, halts⟩ := Lexer.reads_through options (.ofText source)
    rw [completeness_halts reads halts]
    exact (reads.probe halts (Nat.lt_succ_self _)).symm
  · match split : tokenize options source with
    | .error error => exact ⟨error, rfl⟩
    | .ok tokens =>
      rw [complete_iff.2 ⟨tokens, split⟩] at incomplete
      cases incomplete
  · rintro ⟨⟨error, fails⟩, more, tokens, completes⟩
    match told : completeness options source with
    | .incomplete => rfl
    | .complete =>
      obtain ⟨tokens, splits⟩ := complete_iff.1 told
      cases fails.symm.trans splits
    | .faulty fault =>
      have stays := faulty_stays toLine told more
      rw [complete_iff.2 ⟨tokens, completes⟩] at stays
      cases stays

/-- A text that ends inside a comment, a parenthesis and a brace can be completed. -/
theorem open_comment_completed :
    ({} : Options).verbatimToEnd = false ∧
      ∃ more tokens, tokenize {} ("if (a \x7b b # c" ++ more) = .ok tokens :=
  ⟨rfl, ((completeness_exact {} rfl "if (a \x7b b # c").2.2.1.1 (by decide)).2⟩

end Scriptlet
