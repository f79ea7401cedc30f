import Mathlib.Data.List.DropRight
import Mathlib.Data.List.TakeDrop
import Scriptlet.Proofs.Syntax.Lexing

/-!
# How tokens are written

The text in front of a token and the text of the token itself, as relations that do not mention the
lexer, and what one reading takes from a script in their terms. Each token but the end marker takes
at least one character.
-/

namespace Scriptlet

/-- The text is at the end of a line. -/
def EndsLine (text : List Char) : Prop :=
  ∀ c ∈ text.head?, c = '\n'

/-- The text in front of a token, which `rest` follows: blanks, comments up to the end of their line
where comments are on, and the line feeds that separate nothing. -/
inductive Gap (options : Options) (inParens : Bool) (rest : List Char) : List Char → Prop
  | nil :
    Gap options inParens rest []
  | blank {c gap} :
    isInlineBlank c →
    Gap options inParens rest gap →
    Gap options inParens rest (c :: gap)
  | feed {gap} :
    options.newlineSeparates = false ∨ inParens →
    Gap options inParens rest gap →
    Gap options inParens rest ('\n' :: gap)
  | comment {text gap} :
    options.comments →
    '\n' ∉ text →
    EndsLine (gap ++ rest) →
    Gap options inParens rest gap →
    Gap options inParens rest ('#' :: (text ++ gap))

/-- The text between two quotes, and the text it stands for. -/
inductive Unescapes : List Char → List Char → Prop
  | nil :
    Unescapes [] []
  | plain {c body value} :
    c ≠ '"' →
    c ≠ '\\' →
    Unescapes body value →
    Unescapes (c :: body) (c :: value)
  | escaped {c body value} :
    Unescapes body value →
    Unescapes ('\\' :: c :: body) (unescape c :: value)

/-- The tokens whose text is the same wherever they stand. -/
inductive Sign : TokenKind → List Char → Prop
  | feed : Sign .separator ['\n']
  | semicolon : Sign .separator [';']
  | openParen : Sign .openParen ['(']
  | closeParen : Sign .closeParen [')']
  | openBrace : Sign .openBrace ['\x7b']
  | closeBrace : Sign .closeBrace ['\x7d']
  | dollar : Sign .dollar ['$']
  | vector : Sign .vector ['$', '^']
  | caret : Sign .caret ['^']
  | bang : Sign .bang ['!']

/-- A token of the kind that stands for `lexeme` is written as the last argument says in front of
`rest`. Verbatim text is written only where it is due. -/
inductive Spelled (options : Options) (due : Prop) (rest : List Char) :
    TokenKind → List Char → List Char → Prop
  | ending :
    rest = [] →
    Spelled options due rest .endMarker [] []
  | sign {kind text} :
    Sign kind text →
    Spelled options due rest kind text text
  | literal {text} :
    text ≠ [] →
    (∀ c ∈ text, options.isLiteral c) →
    Spelled options due rest .literal text text
  | quoted {body value} :
    options.quotes →
    Unescapes body value →
    Spelled options due rest .quoted value ('"' :: (body ++ ['"']))
  | verbatim {text blanks} :
    due →
    text ≠ [] →
    (∀ c ∈ blanks, Text.isBlank c) →
    Spelled options due rest .literal text (text ++ blanks)

/-- The brackets that are open behind a token, innermost first. -/
def TokenKind.nest (kind : TokenKind) (brackets : List Bracket) : List Bracket :=
  match kind with
  | .openParen => .paren :: brackets
  | .openBrace => .brace :: brackets
  | .closeParen | .closeBrace => brackets.tail
  | _ => brackets

variable {options : Options} {inParens : Bool} {text gap rest : List Char}

/-- No sign is empty. -/
lemma Sign.ne_nil {kind : TokenKind} (sign : Sign kind text) : text ≠ [] := by
  cases sign
  all_goals exact List.cons_ne_nil _ _

/-- No sign is the end marker. -/
lemma Sign.inner {kind : TokenKind} (sign : Sign kind text) : kind ≠ .endMarker := by
  cases sign
  all_goals decide

/-- Only the end marker is spelled with nothing. -/
lemma Spelled.ne_nil {due : Prop} {kind : TokenKind} {lexeme taken : List Char}
    (spelled : Spelled options due rest kind lexeme taken) (inner : kind ≠ .endMarker) :
    taken ≠ [] := by
  cases spelled with
  | ending => exact absurd rfl inner
  | sign sign => exact sign.ne_nil
  | literal filled => exact filled
  | quoted => exact List.cons_ne_nil _ _
  | verbatim _ filled => simp [filled]

/-- The end marker is spelled at the end only. -/
lemma Spelled.ends {due : Prop} {kind : TokenKind} {lexeme taken : List Char}
    (spelled : Spelled options due rest kind lexeme taken) (marker : kind = .endMarker) :
    rest = [] := by
  cases spelled with
  | ending done => exact done
  | sign sign => exact absurd marker sign.inner
  | literal | quoted | verbatim => cases marker

/-- A spelling that is allowed where verbatim text is due is so where it may be. -/
lemma Spelled.mono {due due' : Prop} (weaker : due → due') {kind : TokenKind}
    {lexeme taken : List Char} (spelled : Spelled options due rest kind lexeme taken) :
    Spelled options due' rest kind lexeme taken := by
  cases spelled with
  | ending closed => exact .ending closed
  | sign sign => exact .sign sign
  | literal filled plain => exact .literal filled plain
  | quoted quotes body => exact .quoted quotes body
  | verbatim here filled blank => exact .verbatim (weaker here) filled blank

/-- A gap may start with blanks. -/
lemma Gap.blanks {blanks : List Char} (blank : ∀ c ∈ blanks, isInlineBlank c)
    (more : Gap options inParens rest gap) : Gap options inParens rest (blanks ++ gap) := by
  induction blanks with
  | nil => exact more
  | cons c blanks ih =>
    exact .blank (blank c List.mem_cons_self) (ih fun d later => blank d (.tail _ later))

/-- What of a gap is left inside a comment: the rest of the comment comes first. -/
def CommentGap (options : Options) (inParens : Bool) (rest gap : List Char) : Prop :=
  ∃ comment more, gap = comment ++ more ∧ '\n' ∉ comment ∧ EndsLine (more ++ rest) ∧
    Gap options inParens rest more

/-- In front of a gap that ends its line a comment may go on. -/
lemma Gap.atLineEnd (more : Gap options inParens rest gap) (ends : EndsLine (gap ++ rest)) :
    CommentGap options inParens rest gap :=
  ⟨[], gap, rfl, List.not_mem_nil, ends, more⟩

/-- A comment goes on with any character but a line feed. -/
lemma CommentGap.cons {c : Char} (inner : c ≠ '\n') (more : CommentGap options inParens rest gap) :
    CommentGap options inParens rest (c :: gap) := by
  obtain ⟨comment, gap, rfl, line, ends, more⟩ := more
  exact ⟨c :: comment, gap, rfl, by simp [inner.symm, line], ends, more⟩

/-- A gap may start with a comment. -/
lemma CommentGap.comment (comments : options.comments)
    (more : CommentGap options inParens rest gap) :
    Gap options inParens rest ('#' :: gap) := by
  obtain ⟨comment, gap, rfl, line, ends, more⟩ := more
  exact .comment comments line ends more

/-- A gap and what is behind it are the text. -/
lemma readGap_append (comments newlines inComment : Bool) (text : List Char) :
    (readGap comments newlines inComment text).1 ++ (readGap comments newlines inComment text).2 =
      text := by
  fun_induction readGap comments newlines inComment text
  all_goals simp_all

section Reading

variable (comments newlines inComment : Bool) (text : List Char)

/-- The blanks in front of a gap belong to it. -/
lemma readGap_blanks :
    readGap comments newlines inComment text =
      (text.takeWhile isInlineBlank ++
          (readGap comments newlines inComment (text.dropWhile isInlineBlank)).1,
        (readGap comments newlines inComment (text.dropWhile isInlineBlank)).2) := by
  induction text with
  | nil => rfl
  | cons c text ih =>
    cases blank : isInlineBlank c with
    | false =>
      rw [List.takeWhile_cons_of_neg (by simp [blank]),
        List.dropWhile_cons_of_neg (by simp [blank])]
      rfl
    | true =>
      obtain ⟨other, here⟩ : c ≠ '\n' ∧ Text.isBlank c := by simpa [isInlineBlank] using blank
      rw [List.takeWhile_cons_of_pos blank, List.dropWhile_cons_of_pos blank, readGap, if_neg other,
        if_pos (by simp [here]), ih]
      rfl

/-- A comment ends with its line, and the gap goes on there. -/
lemma readGap_comment :
    readGap comments newlines true text =
      (text.takeWhile (· != '\n') ++
          (readGap comments newlines false (text.dropWhile (· != '\n'))).1,
        (readGap comments newlines false (text.dropWhile (· != '\n'))).2) := by
  induction text with
  | nil => rfl
  | cons c text ih =>
    by_cases feed : c = '\n'
    · subst feed
      rfl
    · have inner : (c != '\n') = true := by simpa using feed
      rw [List.takeWhile_cons, List.dropWhile_cons, inner, readGap, if_neg feed,
        if_pos (Bool.true_or _), ih]
      rfl

end Reading

section Gaps

variable (options inParens)

/-- What is read is a gap in front of what is left. -/
lemma readGap_gap (inComment : Bool) (text : List Char) :
    let read := readGap options.comments (!options.newlineSeparates || inParens) inComment text
    if inComment then CommentGap options inParens read.2 read.1
    else Gap options inParens read.2 read.1 := by
  -- along the text, in a comment or outside of one
  induction text generalizing inComment with
  | nil =>
    have done : Gap options inParens [] [] := .nil
    cases inComment with
    | false => exact done
    | true => exact done.atLineEnd nofun
  | cons c text ih =>
    rw [readGap]
    split
    case isTrue feed =>
      subst feed
      have started : ∀ {gap rest : List Char}, gap ++ rest = '\n' :: text →
          Gap options inParens rest gap →
          if inComment then CommentGap options inParens rest gap
          else Gap options inParens rest gap := by
        intro gap rest here more
        cases inComment with
        | false => exact more
        | true => exact more.atLineEnd (by simp [EndsLine, here])
      split
      case isTrue free =>
        exact started (congrArg _ (readGap_append ..)) (.feed (by simpa using free) (ih false))
      case isFalse => exact started rfl .nil
    case isFalse other =>
      split
      case isTrue skipped =>
        cases inComment with
        | false =>
          have blank : isInlineBlank c := by simpa [isInlineBlank, other] using skipped
          exact .blank blank (ih false)
        | true => exact CommentGap.cons other (ih true)
      case isFalse plain =>
        have outside : inComment = false := by
          cases inComment with
          | false => rfl
          | true => exact absurd rfl plain
        subst outside
        split
        case isTrue hash =>
          obtain ⟨comments, rfl⟩ : options.comments = true ∧ c = '#' := by simpa using hash
          exact CommentGap.comment comments (ih true)
        case isFalse => exact .nil

end Gaps

/-- A quoted literal is read up to its closing quote. -/
lemma readQuoted_unescapes {value taken : List Char}
    (read : readQuoted text = some (value, taken, rest)) :
    text = taken ++ rest ∧ ∃ body, taken = body ++ ['"'] ∧ Unescapes body value := by
  fun_induction readQuoted text generalizing value taken with
  | case1 => cases read
  | case2 => cases read; exact ⟨rfl, [], rfl, .nil⟩
  | case3 c text ih =>
    obtain ⟨⟨value, taken, rest⟩, inner, same⟩ := Option.map_eq_some_iff.1 read
    cases same
    obtain ⟨rfl, body, rfl, body_value⟩ := ih inner
    exact ⟨rfl, _, rfl, .escaped body_value⟩
  | case4 c text noQuote noEscape ih =>
    obtain ⟨⟨value, taken, rest⟩, inner, same⟩ := Option.map_eq_some_iff.1 read
    cases same
    obtain ⟨rfl, body, rfl, body_value⟩ := ih inner
    refine ⟨rfl, _, rfl, .plain noQuote ?_ body_value⟩
    -- a backslash in front of anything is an escape
    rintro rfl
    cases body with
    | nil => exact noEscape _ _ rfl rfl
    | cons d body => exact noEscape _ _ rfl rfl

/-- What a quoted text stands for is read, whatever follows it. -/
lemma Unescapes.read {body value : List Char} (unescapes : Unescapes body value)
    (rest : List Char) :
    readQuoted (body ++ '"' :: rest) = some (value, body ++ ['"'], rest) := by
  induction unescapes with
  | nil => rfl
  | plain noQuote noEscape _ ih =>
    rw [List.cons_append, readQuoted, ih]
    · rfl
    · exact noQuote
    · exact fun _ _ backslash _ => noEscape backslash
  | escaped _ ih =>
    rw [List.cons_append, List.cons_append, readQuoted, ih]
    rfl

/-- Verbatim text is taken with the blanks it ends with. -/
lemma dropBlanksEnd_append (text : List Char) :
    ∃ blanks, text = Text.dropBlanksEnd text ++ blanks ∧ ∀ c ∈ blanks, Text.isBlank c :=
  ⟨text.rtakeWhile Text.isBlank, (List.rdropWhile_append_rtakeWhile ..).symm,
    fun _ inside => List.mem_rtakeWhile_imp inside⟩

namespace Lexer

variable {lx last : Lexer} {spaced : Bool} {token : Token}

/-- What one reading has done that succeeded: `gap` was skipped, a token was read that is written as
`taken`, and the brackets were followed. -/
structure Taken (options : Options) (lx : Lexer) (spaced : Bool) (due : Prop)
    (gap taken : List Char) (token : Token) (last : Lexer) : Prop where
  rest : lx.rest = gap ++ (taken ++ last.rest)
  skipped : Gap options lx.inParens (taken ++ last.rest) gap
  spelled : Spelled options due last.rest token.kind token.lexeme.toList taken
  start : token.span.start = lx.location.after gap
  stop : token.span.stop = last.location
  location : last.location = lx.location.after (gap ++ taken)
  offset : last.offset = lx.offset + (gap ++ taken).length
  spaced : token.spaced = (spaced || !gap.isEmpty)
  nesting : last.brackets.map Prod.fst = token.kind.nest (lx.brackets.map Prod.fst)
  atStatement : last.atStatement = lx.atStatement
  verbatim : last.verbatim = lx.verbatim ∨ lx.verbatim = .now ∧ last.verbatim = .off

/-- A token is taken with its characters, if they spell it. -/
lemma emit_taken {due : Prop} {kind : TokenKind} {lexeme taken : List Char}
    (brackets : List (Bracket × Location)) (here : lx.rest = taken ++ rest)
    (spelled : Spelled options due rest kind lexeme taken)
    (nesting : brackets.map Prod.fst = kind.nest (lx.brackets.map Prod.fst)) :
    Taken options lx spaced due [] taken
      ({ lx with brackets := brackets }.emit kind lexeme taken rest spaced).1
      ({ lx with brackets := brackets }.emit kind lexeme taken rest spaced).2 where
  rest := here
  skipped := .nil
  spelled := by simpa [emit, move] using spelled
  start := rfl
  stop := rfl
  location := rfl
  offset := rfl
  spaced := by simp [emit]
  nesting := nesting
  atStatement := rfl
  verbatim := .inl rfl

/-- A closing bracket that is accepted is taken. -/
lemma closing_taken {due : Prop} (bracket : Bracket) {c : Char} (here : lx.rest = c :: rest)
    (sign : Sign bracket.closer [c])
    (read : lx.closing bracket c rest spaced = (.ok token, last)) :
    Taken options lx spaced due [] [c] token last := by
  match inside : lx.brackets with
  | [] =>
    rw [closing, closeBracket, inside] at read
    cases read
  | (opened, openedAt) :: outer =>
    by_cases same : opened = bracket
    · subst same
      rw [closing_eq inside] at read
      cases read
      refine emit_taken outer here (.sign sign) ?_
      rw [inside]
      cases opened <;> rfl
    · simp [closing, closeBracket, inside, same] at read

/-- The end marker is taken with nothing. -/
lemma atEnd_taken {due : Prop} (here : lx.rest = [])
    (read : lx.atEnd spaced = (.ok token, last)) :
    Taken options lx spaced due [] [] token last := by
  match inside : lx.brackets with
  | [] =>
    rw [atEnd_eq inside] at read
    cases read
    exact emit_taken lx.brackets rfl (.ending here) rfl
  | (bracket, openedAt) :: outer =>
    rw [atEnd, inside] at read
    cases read

/-- A token that belongs to no gap is read as it is written. -/
lemma symbol_taken (due : Prop) (read : lx.symbol options spaced = (.ok token, last)) :
    ∃ taken, Taken options lx spaced due [] taken token last := by
  have emitted : ∀ {kind : TokenKind} {text rest : List Char}, lx.rest = text ++ rest →
      Sign kind text → kind.nest = id →
      (.ok (lx.emit kind text text rest spaced).1, (lx.emit kind text text rest spaced).2) =
        ((.ok token, last) : Except LexError Token × Lexer) →
      ∃ taken, Taken options lx spaced due [] taken token last := by
    intro kind text rest here sign flat same
    cases same
    exact ⟨text, emit_taken lx.brackets here (.sign sign) (by rw [flat]; rfl)⟩
  have opened : ∀ (bracket : Bracket) {c : Char} {rest : List Char}, lx.rest = c :: rest →
      Sign bracket.opener [c] →
      (.ok ((lx.openBracket bracket).emit bracket.opener [c] [c] rest spaced).1,
          ((lx.openBracket bracket).emit bracket.opener [c] [c] rest spaced).2) =
        ((.ok token, last) : Except LexError Token × Lexer) →
      ∃ taken, Taken options lx spaced due [] taken token last := by
    intro bracket c rest here sign same
    cases same
    exact ⟨[c], emit_taken ((bracket, lx.location) :: lx.brackets) here (.sign sign)
      (by cases bracket <;> rfl)⟩
  -- one case for each pattern of the lexer
  rw [symbol] at read
  split at read
  case h_1 here => exact ⟨[], atEnd_taken here read⟩
  case h_2 here => exact emitted here .feed rfl read
  case h_3 here => exact emitted here .vector rfl read
  case h_4 here => exact emitted here .dollar rfl read
  case h_5 here => exact emitted here .caret rfl read
  case h_6 here => exact emitted here .bang rfl read
  case h_7 here => exact emitted here .semicolon rfl read
  case h_8 here => exact opened .paren here .openParen read
  case h_9 here => exact ⟨_, closing_taken .paren here .closeParen read⟩
  case h_10 here => exact opened .brace here .openBrace read
  case h_11 here => exact ⟨_, closing_taken .brace here .closeBrace read⟩
  case h_12 c rest _ _ _ _ _ _ _ _ _ _ here =>
    split at read
    case isTrue quote =>
      obtain ⟨quotes, rfl⟩ : options.quotes = true ∧ c = '"' := by simpa using quote
      split at read
      case h_1 => cases read
      case h_2 quoted =>
        cases read
        obtain ⟨rfl, body, rfl, unescapes⟩ := readQuoted_unescapes quoted
        exact ⟨_, emit_taken lx.brackets here (.quoted quotes unescapes) rfl⟩
    case isFalse =>
      split at read
      case h_1 => cases read
      case h_2 taken rest filled literal =>
        cases read
        rw [List.span_eq_takeWhile_dropWhile, Prod.mk.injEq] at literal
        obtain ⟨rfl, rfl⟩ := literal
        refine ⟨_, emit_taken lx.brackets ?_ (.literal filled ?_) rfl⟩
        · rw [List.takeWhile_append_dropWhile, here]
        · exact fun c inside => List.mem_takeWhile_imp inside

/-- The start of a gap may be skipped first, and verbatim text given up. -/
lemma Taken.behind {due : Prop} {mode : Verbatim} {gap rest more taken : List Char}
    (read : Taken options { lx.move gap rest with verbatim := mode } (spaced || !gap.isEmpty) due
      more taken token last)
    (kept : mode = lx.verbatim ∨ lx.verbatim = .now ∧ mode = .off) (here : lx.rest = gap ++ rest)
    (skipped : Gap options lx.inParens (taken ++ last.rest) (gap ++ more)) :
    Taken options lx spaced due (gap ++ more) taken token last where
  rest := by
    have left : rest = more ++ (taken ++ last.rest) := read.rest
    rw [here, left, List.append_assoc]
  skipped := skipped
  spelled := read.spelled
  start := by rw [read.start, Location.after_append]; rfl
  stop := read.stop
  location := by
    rw [read.location, List.append_assoc, Location.after_append _ gap]
    rfl
  offset := by
    rw [read.offset, List.append_assoc, @List.length_append _ gap, ← Nat.add_assoc]
    rfl
  spaced := by
    rw [read.spaced]
    cases gap <;> simp
  nesting := read.nesting
  atStatement := read.atStatement
  verbatim := by
    have same : last.verbatim = mode ∨ mode = .now ∧ last.verbatim = .off := read.verbatim
    grind

/-- Moving twice is moving once. -/
lemma move_move (skipped more left : List Char) :
    (lx.move skipped rest).move more left = lx.move (skipped ++ more) left := by
  simp [move, Location.after_append, Nat.add_assoc]

/-- The gap that comes next, and what is left behind it. -/
def gapAhead (options : Options) (lx : Lexer) : List Char × List Char :=
  readGap options.comments (!options.newlineSeparates || lx.inParens) false lx.rest

/-- A token is read behind the gap ahead, spaced if there is one. -/
lemma ordinary_eq :
    lx.ordinary options spaced =
      (lx.move (lx.gapAhead options).1 (lx.gapAhead options).2).symbol options
        (spaced || !(lx.gapAhead options).1.isEmpty) := rfl

/-- The gap ahead and what is behind it are the text. -/
lemma gapAhead_append (options : Options) (lx : Lexer) :
    (lx.gapAhead options).1 ++ (lx.gapAhead options).2 = lx.rest :=
  readGap_append ..

/-- The gap ahead is one. -/
lemma gapAhead_gap : Gap options lx.inParens (lx.gapAhead options).2 (lx.gapAhead options).1 :=
  readGap_gap options lx.inParens false lx.rest

/-- A gap and the token behind it are read. -/
lemma ordinary_taken (due : Prop) (read : lx.ordinary options spaced = (.ok token, last)) :
    ∃ gap taken, Taken options lx spaced due gap taken token last := by
  rw [ordinary_eq] at read
  obtain ⟨taken, more⟩ := symbol_taken due read
  have left : (lx.gapAhead options).2 = taken ++ last.rest := more.rest
  have whole := (gapAhead_append options lx).symm
  refine ⟨(lx.gapAhead options).1 ++ [], taken, more.behind (.inl rfl) whole ?_⟩
  rw [List.append_nil, ← left]
  exact gapAhead_gap

/-- The lexer behind the blanks that come next. -/
def afterBlanks (lx : Lexer) : Lexer :=
  lx.move (lx.rest.takeWhile isInlineBlank) (lx.rest.dropWhile isInlineBlank)

/-- The text that a trigger would take, with the blanks it ends with. -/
def verbatimText (options : Options) (lx : Lexer) : List Char :=
  lx.afterBlanks.rest.takeWhile options.isVerbatim

/-- Whether a token behind the blanks that come next is spaced. -/
def blanksSpaced (lx : Lexer) : Bool :=
  lx.offset == 0 || !(lx.rest.takeWhile isInlineBlank).isEmpty

/-- Verbatim text is the token, unless it is blank: then the next token is read as usual. -/
lemma scan_now (now : lx.verbatim = .now) :
    lx.scan options =
      if (Text.dropBlanksEnd (lx.verbatimText options)).isEmpty then
        { lx.afterBlanks with verbatim := .off }.ordinary options lx.blanksSpaced
      else
        (.ok (lx.afterBlanks.emit .literal (Text.dropBlanksEnd (lx.verbatimText options))
            (lx.verbatimText options) (lx.afterBlanks.rest.dropWhile options.isVerbatim)
            lx.blanksSpaced).1,
          (lx.afterBlanks.emit .literal (Text.dropBlanksEnd (lx.verbatimText options))
            (lx.verbatimText options) (lx.afterBlanks.rest.dropWhile options.isVerbatim)
            lx.blanksSpaced).2) := by
  rw [scan, if_pos now]
  dsimp only
  rw [List.span_eq_takeWhile_dropWhile, List.span_eq_takeWhile_dropWhile]
  rfl

/-- Where no verbatim text is due now, a token is read behind a gap. -/
lemma scan_ordinary (later : lx.verbatim ≠ .now) :
    lx.scan options = lx.ordinary options (lx.offset == 0) := by
  rw [scan, if_neg later]

/-- Every token is read behind its gap as it is written. -/
lemma scan_taken (read : lx.scan options = (.ok token, last)) :
    ∃ gap taken, Taken options lx (lx.offset == 0) (lx.verbatim = .now) gap taken token last := by
  by_cases now : lx.verbatim = .now
  · have blanks : ∀ c ∈ lx.rest.takeWhile isInlineBlank, isInlineBlank c :=
      fun c inside => List.mem_takeWhile_imp inside
    have here : lx.rest = lx.rest.takeWhile isInlineBlank ++ lx.rest.dropWhile isInlineBlank :=
      List.takeWhile_append_dropWhile.symm
    rw [scan_now now] at read
    split at read
    case isTrue =>
      obtain ⟨gap, taken, more⟩ := ordinary_taken (lx.verbatim = .now) read
      exact ⟨_, taken, more.behind (.inr ⟨now, rfl⟩) here (.blanks blanks more.skipped)⟩
    case isFalse filled =>
      cases read
      obtain ⟨trailing, same, blank⟩ := dropBlanksEnd_append (lx.verbatimText options)
      have spelled : Spelled options (lx.verbatim = .now)
          (lx.afterBlanks.rest.dropWhile options.isVerbatim) .literal _ _ :=
        .verbatim now (by simpa using filled) blank
      rw [← same] at spelled
      have left : lx.afterBlanks.rest = lx.verbatimText options ++ _ :=
        List.takeWhile_append_dropWhile.symm
      have taken : Taken options lx.afterBlanks lx.blanksSpaced (lx.verbatim = .now) [] _ _ _ :=
        emit_taken lx.afterBlanks.brackets left spelled rfl
      exact ⟨_, _, taken.behind (.inl rfl) here (.blanks blanks .nil)⟩
  · rw [scan_ordinary now] at read
    exact ordinary_taken _ read

end Lexer

end Scriptlet
