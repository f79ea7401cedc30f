import Scriptlet.Proofs.Lexer.Mending
import Scriptlet.Proofs.Lexer.Munch

/-!
# Cutting a text into tokens

Every text is cut into tokens in one way, whether its brackets match or not: behind the longest gap
comes the longest token, or the text that a trigger takes. The cut goes up to the end of the text or
to a quoted literal that no quote ends (`Cut.unique`, `Lexer.Tracks.cut`). A lexer follows it up to
the first bracket that does not match (`Lexer.Tracks.turn`).
-/

namespace Scriptlet

namespace Lexer

/-- Verbatim text that is due now is not due behind the next token. -/
def settled (lx : Lexer) : Lexer :=
  { lx with verbatim := if lx.verbatim = .now then .off else lx.verbatim }

end Lexer

section Cuts

variable (options : Options)

/-- A lexer that has followed the tokens for triggers, and read nothing. -/
def attention (earlier : List Token) : Lexer :=
  earlier.foldl (fun lx token => lx.settled.trackTriggers options token) (.ofText "")

/-- The text that a trigger would take, with the blanks it ends with. -/
def lineAhead (text : List Char) : List Char :=
  (text.dropWhile isInlineBlank).takeWhile options.isVerbatim

/-- Behind the tokens, a trigger takes what the text starts with. -/
def TakesLine (earlier : List Token) (text : List Char) : Prop :=
  (attention options earlier).verbatim = .now ∧ Text.dropBlanksEnd (lineAhead options text) ≠ []

/-- Behind the tokens, the text starts with a gap and a token that is written as `taken`. -/
inductive Ahead (earlier : List Token) (text : List Char) :
    (gap : List Char) → TokenKind → (lexeme taken rest : List Char) → Prop
  | line :
    TakesLine options earlier text →
    Ahead earlier text (text.takeWhile isInlineBlank) .literal
      (Text.dropBlanksEnd (lineAhead options text)) (lineAhead options text)
      ((text.dropWhile isInlineBlank).dropWhile options.isVerbatim)
  | plain {gap kind lexeme taken rest} :
    ¬ TakesLine options earlier text →
    text = gap ++ (taken ++ rest) →
    LongestGap options ((openBrackets earlier).head? == some .paren) gap (taken ++ rest) →
    LongestToken options kind lexeme taken rest →
    kind ≠ .endMarker →
    Ahead earlier text gap kind lexeme taken rest

/-- Behind the tokens, the text is a gap and what no token starts with. -/
structure Stops (earlier : List Token) (text gap tail : List Char) : Prop where
  plain : ¬ TakesLine options earlier text
  whole : text = gap ++ tail
  skipped : LongestGap options ((openBrackets earlier).head? == some .paren) gap tail
  bare {kind : TokenKind} {lexeme taken rest : List Char} :
    taken ++ rest = tail → Spelled options False rest kind lexeme taken → kind = .endMarker

/-- Behind the text `before`, which is cut into the tokens `earlier`, the text is cut into the
tokens up to the tail. -/
inductive Cut : (before : List Char) → (earlier : List Token) → (text : List Char) →
    (tokens : List Token) → (tail : List Char) → Prop
  | stop {before earlier text gap tail} :
    Stops options earlier text gap tail →
    Cut before earlier text [] tail
  | token {before earlier text gap taken rest token tokens tail} :
    Ahead options earlier text gap token.kind token.lexeme.toList taken rest →
    token.span = ⟨.behind (before ++ gap), .behind (before ++ gap ++ taken)⟩ →
    (token.spaced ↔ gap ≠ [] ∨ before ++ gap = []) →
    Cut (before ++ gap ++ taken) (earlier ++ [token]) rest tokens tail →
    Cut before earlier text (token :: tokens) tail

end Cuts

variable {options : Options} {before text gap taken rest tail : List Char}
  {earlier tokens : List Token} {token : Token}

section Unique

variable {kind kind' : TokenKind} {lexeme lexeme' gap' taken' rest' tail' : List Char}

/-- What is ahead is a gap, a token and the rest. -/
lemma Ahead.whole (ahead : Ahead options earlier text gap kind lexeme taken rest) :
    text = gap ++ (taken ++ rest) := by
  cases ahead with
  | line =>
    rw [lineAhead, List.takeWhile_append_dropWhile, List.takeWhile_append_dropWhile]
  | plain _ whole => exact whole

/-- A token ahead is not the end. -/
lemma Ahead.inner (ahead : Ahead options earlier text gap kind lexeme taken rest) :
    kind ≠ .endMarker := by
  cases ahead with
  | line => decide
  | plain _ _ _ _ inner => exact inner

/-- A token takes a character. -/
lemma Ahead.taken_ne_nil (ahead : Ahead options earlier text gap kind lexeme taken rest) :
    taken ≠ [] := by
  cases ahead with
  | line takes =>
    intro nothing
    apply takes.2
    rw [nothing]
    rfl
  | plain _ _ _ longest inner => exact longest.spelled.ne_nil inner

/-- There is one token ahead. -/
lemma Ahead.unique (ahead : Ahead options earlier text gap kind lexeme taken rest)
    (ahead' : Ahead options earlier text gap' kind' lexeme' taken' rest') :
    gap' = gap ∧ kind' = kind ∧ lexeme' = lexeme ∧ taken' = taken ∧ rest' = rest := by
  cases ahead with
  | line takes =>
    cases ahead' with
    | line => exact ⟨rfl, rfl, rfl, rfl, rfl⟩
    | plain plain => exact absurd takes plain
  | plain plain whole skipped longest =>
    cases ahead' with
    | line takes => exact absurd takes plain
    | plain _ whole' skipped' longest' =>
      have read := skipped.read
      rw [← whole, whole', skipped'.read] at read
      obtain ⟨rfl, left⟩ := Prod.mk.inj read
      obtain ⟨kinds, lexemes, same, behind⟩ := longest.unique longest' left
      exact ⟨rfl, kinds, lexemes, same, behind⟩

/-- Where a gap stops is determined. -/
lemma Stops.unique (stops : Stops options earlier text gap tail)
    (stops' : Stops options earlier text gap' tail') : gap' = gap ∧ tail' = tail := by
  have read := stops.skipped.read
  rw [← stops.whole, stops'.whole, stops'.skipped.read] at read
  exact Prod.mk.inj read

/-- Where a token is ahead, the cut does not stop. -/
lemma Stops.not_ahead (stops : Stops options earlier text gap tail) :
    ¬ Ahead options earlier text gap' kind lexeme taken rest := by
  intro ahead
  cases ahead with
  | line takes => exact stops.plain takes
  | plain _ whole skipped longest inner =>
    have read := stops.skipped.read
    rw [← stops.whole, whole, skipped.read] at read
    exact inner (stops.bare (Prod.mk.inj read).2 longest.spelled)

/-- There is one cut. -/
theorem Cut.unique {tokens' : List Token} (cut : Cut options before earlier text tokens tail)
    (cut' : Cut options before earlier text tokens' tail') : tokens' = tokens ∧ tail' = tail := by
  induction cut generalizing tokens' with
  | stop stops =>
    cases cut' with
    | stop stops' => exact ⟨rfl, (stops.unique stops').2⟩
    | token ahead => exact absurd ahead stops.not_ahead
  | @token _ _ _ _ _ _ token _ _ ahead span spaced _ ih =>
    cases cut' with
    | stop stops => exact absurd ahead stops.not_ahead
    | @token _ _ _ _ _ _ token' _ _ ahead' span' spaced' cut' =>
      obtain ⟨rfl, kinds, lexemes, rfl, rfl⟩ := ahead.unique ahead'
      have same : token' = token := by
        have lexeme := String.toList_inj.1 lexemes
        have span := span'.trans span.symm
        have spaced := Bool.eq_iff_iff.2 (spaced'.trans spaced.symm)
        cases token
        cases token'
        exact (Token.mk.injEq ..).mpr ⟨kinds, lexeme, span, spaced⟩
      subst same
      obtain ⟨rfl, rfl⟩ := ih cut'
      exact ⟨rfl, rfl⟩

end Unique

/-- The attention of the lexer follows the tokens one by one. -/
lemma attention_append (earlier : List Token) (token : Token) :
    attention options (earlier ++ [token]) =
      (attention options earlier).settled.trackTriggers options token := by
  rw [attention, List.foldl_append]
  rfl

namespace Lexer

variable {lx mid last : Lexer} {spaced : Bool}

/-- Both lexers stand alike towards triggers. -/
def AlikeMode (lx mid : Lexer) : Prop :=
  lx.verbatim = mid.verbatim ∧ lx.atStatement = mid.atStatement

/-- That lexers are in the same mode is handed on. -/
lemma AlikeMode.trans {other : Lexer} (first : lx.AlikeMode mid) (second : mid.AlikeMode other) :
    lx.AlikeMode other :=
  ⟨first.1.trans second.1, first.2.trans second.2⟩

/-- Lexers in the same mode settle in the same mode. -/
lemma AlikeMode.settled (alike : lx.AlikeMode mid) : lx.settled.AlikeMode mid.settled := by
  obtain ⟨verbatim, atStatement⟩ := alike
  exact ⟨by rw [Lexer.settled, Lexer.settled, verbatim], atStatement⟩

/-- Triggers are followed alike. -/
lemma AlikeMode.trackTriggers (alike : lx.AlikeMode mid) (token : Token) :
    (lx.trackTriggers options token).AlikeMode (mid.trackTriggers options token) := by
  obtain ⟨rest, offset, location, brackets, verbatim, atStatement⟩ := lx
  obtain ⟨rest', offset', location', brackets', verbatim', atStatement'⟩ := mid
  obtain ⟨rfl, rfl⟩ := alike
  rw [Lexer.trackTriggers, Lexer.trackTriggers]
  dsimp only
  split
  · split
    all_goals exact ⟨rfl, rfl⟩
  · split
    all_goals exact ⟨rfl, rfl⟩
  · exact ⟨rfl, rfl⟩

/-- Behind a literal that was verbatim text, no trigger is open. -/
lemma trackTriggers_line (now : lx.verbatim = .now) (statement : lx.atStatement = false)
    (kind : token.kind = .literal) :
    (lx.trackTriggers options token).AlikeMode (lx.settled.trackTriggers options token) := by
  rw [trackTriggers, now, trackTriggers, settled, if_pos now, kind]
  simp [AlikeMode, statement]

/-- Where a trigger is open, no statement starts. -/
lemma trackTriggers_busy (busy : lx.verbatim ≠ .off → lx.atStatement = false) (token : Token) :
    (lx.trackTriggers options token).verbatim ≠ .off →
      (lx.trackTriggers options token).atStatement = false := by
  rw [trackTriggers]
  split
  case h_1 off =>
    split
    case h_5 => exact fun _ => rfl
    all_goals exact fun on => absurd off on
  case h_2 count waits =>
    split
    case isTrue => exact fun _ => busy (by simp [waits])
    case isFalse => exact fun on => absurd rfl on
  case h_3 => exact fun on => absurd rfl on

/-- The lexer stands behind the text `before`, which is cut into the tokens `earlier`. -/
structure Tracks (options : Options) (before : List Char) (earlier : List Token) (lx : Lexer) :
    Prop where
  offset : lx.offset = before.length
  location : lx.location = .behind before
  nesting : lx.brackets.map Prod.fst = openBrackets earlier
  mode : lx.AlikeMode (attention options earlier)
  busy : lx.verbatim ≠ .off → lx.atStatement = false

/-- The lexer has come behind a token, but has not followed it for triggers yet. -/
structure Comes (lx : Lexer) (gap taken : List Char) (token : Token) (mid : Lexer) : Prop where
  offset : mid.offset = lx.offset + (gap ++ taken).length
  location : mid.location = lx.location.after (gap ++ taken)
  nesting : mid.brackets.map Prod.fst = token.kind.nest (lx.brackets.map Prod.fst)
  mode : mid.AlikeMode lx.settled ∨
    mid.AlikeMode lx ∧ lx.verbatim = .now ∧ token.kind = .literal

/-- At the start of a text nothing has been passed. -/
lemma ofText_tracks (source : String) : (ofText source).Tracks options [] [] where
  offset := rfl
  location := rfl
  nesting := rfl
  mode := ⟨rfl, rfl⟩
  busy := fun on => absurd rfl on

/-- The text behind which the lexer stands grows with what it reads. -/
lemma Tracks.place (tracks : lx.Tracks options before earlier) (text : List Char) :
    lx.location.after text = .behind (before ++ text) := by
  rw [tracks.location, ← Location.after_origin, ← Location.after_append, Location.after_origin]

/-- A token that comes is put behind those before it, with its gap. -/
lemma Tracks.comes (tracks : lx.Tracks options before earlier)
    (comes : lx.Comes gap taken token mid) :
    (mid.trackTriggers options token).Tracks options (before ++ gap ++ taken)
      (earlier ++ [token]) where
  offset := by
    rw [trackTriggers_offset, comes.offset, tracks.offset, ← List.length_append, List.append_assoc]
  location := by
    rw [trackTriggers_location, comes.location, tracks.place, List.append_assoc]
  nesting := by
    rw [trackTriggers_brackets, comes.nesting, tracks.nesting, openBrackets_append]
  mode := by
    have settled : (lx.settled.trackTriggers options token).AlikeMode _ :=
      tracks.mode.settled.trackTriggers token
    rw [← attention_append] at settled
    obtain mode | ⟨mode, now, kind⟩ := comes.mode
    · exact (mode.trackTriggers token).trans settled
    · have statement := tracks.busy (by simp [now])
      exact (mode.trackTriggers token).trans ((trackTriggers_line now statement kind).trans settled)
  busy := by
    refine trackTriggers_busy (fun on => ?_) token
    obtain ⟨verbatim, atStatement⟩ | ⟨⟨-, atStatement⟩, now, -⟩ := comes.mode
    · rw [atStatement]
      refine tracks.busy fun off => on ?_
      rw [verbatim, Lexer.settled, off]
      rfl
    · rw [atStatement]
      exact tracks.busy (by simp [now])

/-- One token of the cut is passed. -/
structure Passes (options : Options) (before : List Char) (earlier : List Token) (lx : Lexer)
    (gap taken : List Char) (token : Token) (last : Lexer) : Prop where
  ahead : Ahead options earlier lx.rest gap token.kind token.lexeme.toList taken last.rest
  span : token.span = ⟨.behind (before ++ gap), .behind (before ++ gap ++ taken)⟩
  spaced : token.spaced ↔ gap ≠ [] ∨ before ++ gap = []
  tracks : last.Tracks options (before ++ gap ++ taken) (earlier ++ [token])

/-- What the token does to the brackets that are open. -/
inductive BracketStep (token : Token) :
    List (Bracket × Location) → List (Bracket × Location) → Prop
  | opens {bracket brackets} :
    token.kind = bracket.opener →
    BracketStep token brackets ((bracket, token.start) :: brackets)
  | closes {bracket opened brackets} :
    token.kind = bracket.closer →
    BracketStep token ((bracket, opened) :: brackets) brackets
  | flat {brackets} :
    token.kind.nest = id →
    BracketStep token brackets brackets

/-- What the next reading of a lexer can be. -/
inductive Turn (options : Options) (before : List Char) (earlier : List Token) (lx : Lexer) :
    Except LexError Token → Prop
  | reads {gap taken : List Char} {token : Token} {last : Lexer} :
    lx.next options = (.ok token, last) →
    Passes options before earlier lx gap taken token last →
    BracketStep token lx.brackets last.brackets →
    Turn options before earlier lx (.ok token)
  | unmatched {gap taken : List Char} {token : Token} {last : Lexer} {bracket : Bracket} :
    Passes options before earlier lx gap taken token last →
    token.kind = bracket.closer →
    lx.brackets = [] →
    Turn options before earlier lx (.error ⟨.unmatched bracket, token.start⟩)
  | mismatched {gap taken : List Char} {token : Token} {last : Lexer} {bracket opened : Bracket}
      {openedAt : Location} {outer : List (Bracket × Location)} :
    Passes options before earlier lx gap taken token last →
    token.kind = bracket.closer →
    lx.brackets = (opened, openedAt) :: outer →
    opened ≠ bracket →
    Turn options before earlier lx (.error ⟨.mismatched bracket opened openedAt, token.start⟩)
  | ends {gap : List Char} {marker : Token} :
    Stops options earlier lx.rest gap [] →
    lx.brackets = [] →
    marker.kind = .endMarker →
    Turn options before earlier lx (.ok marker)
  | unclosed {gap : List Char} {bracket : Bracket} {openedAt : Location}
      {outer : List (Bracket × Location)} :
    Stops options earlier lx.rest gap [] →
    lx.brackets = (bracket, openedAt) :: outer →
    Turn options before earlier lx (.error ⟨.unclosed bracket, openedAt⟩)
  | unterminated {gap tail : List Char} :
    Stops options earlier lx.rest gap tail →
    OpenQuote options tail →
    Turn options before earlier lx (.error ⟨.unterminated, .behind (before ++ gap)⟩)

/-- Where no trigger takes the text, the token behind the longest gap is read. -/
lemma scan_plain
    (plain : lx.verbatim = .now → Text.dropBlanksEnd (lineAhead options lx.rest) = []) :
    lx.scan options =
      (lx.settled.move (gapOf options lx.inParens lx.rest).1
          (gapOf options lx.inParens lx.rest).2).symbol options
        (lx.offset == 0 || !(gapOf options lx.inParens lx.rest).1.isEmpty) := by
  by_cases now : lx.verbatim = .now
  · have blank : (Text.dropBlanksEnd (lx.verbatimText options)).isEmpty :=
      List.isEmpty_iff.2 (plain now)
    have read : gapOf options lx.inParens lx.rest =
        (lx.rest.takeWhile isInlineBlank ++
          (gapOf options lx.inParens (lx.rest.dropWhile isInlineBlank)).1,
          (gapOf options lx.inParens (lx.rest.dropWhile isInlineBlank)).2) := readGap_blanks ..
    have start : { lx.afterBlanks with verbatim := .off } =
        lx.settled.move (lx.rest.takeWhile isInlineBlank) (lx.rest.dropWhile isInlineBlank) := by
      rw [settled, if_pos now]
      rfl
    rw [scan_now now, if_pos blank, ordinary_eq, start, move_move, read]
    congr 1
    show (lx.blanksSpaced ||
      !(gapOf options lx.inParens (lx.rest.dropWhile isInlineBlank)).1.isEmpty) = _
    rw [blanksSpaced]
    cases lx.rest.takeWhile isInlineBlank <;> simp
  · rw [scan_ordinary now, ordinary_eq, settled, if_neg now]
    rfl

section Passing

variable {kind : TokenKind} {lexeme : List Char} {brackets : List (Bracket × Location)}

/-- The longest token behind the longest gap is passed, whatever it does to the brackets. -/
lemma Tracks.passes (tracks : lx.Tracks options before earlier)
    (plain : ¬ TakesLine options earlier lx.rest)
    (ahead : gapOf options lx.inParens lx.rest = (gap, taken ++ rest))
    (longest : LongestToken options kind lexeme taken rest) (inner : kind ≠ .endMarker)
    (nesting : brackets.map Prod.fst = kind.nest (lx.brackets.map Prod.fst)) :
    let read := { lx.settled.move gap (taken ++ rest) with brackets := brackets }.emit kind lexeme
      taken rest (lx.offset == 0 || !gap.isEmpty)
    Passes options before earlier lx gap taken read.1 (read.2.trackTriggers options read.1) where
  ahead := by
    rw [trackTriggers_rest]
    show Ahead options earlier lx.rest gap kind (String.ofList lexeme).toList taken rest
    rw [String.toList_ofList]
    have whole := gapOf_append options lx.inParens lx.rest
    have skipped := gapOf_longest options lx.inParens lx.rest
    rw [ahead] at whole skipped
    rw [inParens_eq, tracks.nesting] at skipped
    exact .plain plain whole.symm skipped longest inner
  span := by
    rw [← tracks.place, List.append_assoc, ← tracks.place, Location.after_append]
    rfl
  spaced := by
    show (lx.offset == 0 || !gap.isEmpty) = true ↔ _
    rw [tracks.offset]
    cases gap <;> simp
  tracks := by
    refine tracks.comes ⟨?_, ?_, nesting, .inl ⟨rfl, rfl⟩⟩
    · rw [List.length_append, ← Nat.add_assoc]
      rfl
    · rw [Location.after_append]
      rfl

/-- The text that a trigger takes is passed. -/
lemma Tracks.passes_line (tracks : lx.Tracks options before earlier)
    (takes : TakesLine options earlier lx.rest) :
    let read := lx.afterBlanks.emit .literal (Text.dropBlanksEnd (lx.verbatimText options))
      (lx.verbatimText options) (lx.afterBlanks.rest.dropWhile options.isVerbatim) lx.blanksSpaced
    Passes options before earlier lx (lx.rest.takeWhile isInlineBlank) (lx.verbatimText options)
      read.1 (read.2.trackTriggers options read.1) where
  ahead := by
    rw [trackTriggers_rest]
    show Ahead options earlier lx.rest _ _ (String.ofList _).toList _ _
    rw [String.toList_ofList]
    exact .line takes
  span := by
    rw [← tracks.place, List.append_assoc, ← tracks.place, Location.after_append]
    rfl
  spaced := by
    show lx.blanksSpaced = true ↔ _
    rw [blanksSpaced, tracks.offset]
    cases lx.rest.takeWhile isInlineBlank <;> simp
  tracks := by
    refine tracks.comes ⟨?_, ?_, rfl, .inr ⟨⟨rfl, rfl⟩, tracks.mode.1.trans takes.1, rfl⟩⟩
    · rw [List.length_append, ← Nat.add_assoc]
      rfl
    · rw [Location.after_append]
      rfl

end Passing

/-- Behind a gap at which nothing is read, the cut stops. -/
lemma Tracks.stops (tracks : lx.Tracks options before earlier)
    (plain : ¬ TakesLine options earlier lx.rest)
    (ahead : gapOf options lx.inParens lx.rest = (gap, tail))
    (bare : ∀ {kind lexeme taken rest}, taken ++ rest = tail →
      Spelled options False rest kind lexeme taken → kind = .endMarker) :
    Stops options earlier lx.rest gap tail := by
  have whole := gapOf_append options lx.inParens lx.rest
  have skipped := gapOf_longest options lx.inParens lx.rest
  rw [ahead] at whole skipped
  rw [inParens_eq, tracks.nesting] at skipped
  exact ⟨plain, whole.symm, skipped, bare⟩

/-- A token that is scanned is the next one, and the triggers are told of it. -/
lemma next_of_scan (scanned : lx.scan options = (.ok token, mid)) :
    lx.next options = (.ok token, mid.trackTriggers options token) := by
  rw [next, scanned]

/-- A fault of the scan is the fault of the reading. -/
lemma next_of_error {error : LexError} (scanned : lx.scan options = (.error error, mid)) :
    (lx.next options).1 = .error error := by
  rw [next_error.2 scanned]

/-- A token that is scanned and passes takes its turn. -/
lemma Turn.of_scan (scanned : lx.scan options = (.ok token, mid))
    (passes : Passes options before earlier lx gap taken token (mid.trackTriggers options token))
    (step : BracketStep token lx.brackets mid.brackets) :
    Turn options before earlier lx (lx.next options).1 := by
  have read := next_of_scan scanned
  rw [read]
  refine .reads read passes ?_
  rwa [trackTriggers_brackets]

/-- The text that a trigger takes is part of the cut. -/
lemma Tracks.turn_line (tracks : lx.Tracks options before earlier)
    (takes : TakesLine options earlier lx.rest) :
    Turn options before earlier lx (lx.next options).1 := by
  have filled : ¬ (Text.dropBlanksEnd (lx.verbatimText options)).isEmpty :=
    fun blank => takes.2 (List.isEmpty_iff.1 blank)
  have scanned : lx.scan options = _ := scan_now (tracks.mode.1.trans takes.1)
  rw [if_neg filled] at scanned
  exact .of_scan scanned (tracks.passes_line takes) (.flat rfl)

/-- At the end of the text the cut stops, whether a bracket is open or not. -/
lemma Tracks.turn_end (tracks : lx.Tracks options before earlier)
    (plain : ¬ TakesLine options earlier lx.rest)
    (ahead : gapOf options lx.inParens lx.rest = (gap, []))
    (result : lx.scan options = (lx.settled.move gap []).atEnd spaced) :
    Turn options before earlier lx (lx.next options).1 := by
  have stops := tracks.stops plain ahead fun nothing spelled => spelled.of_nil nothing
  match inside : lx.brackets with
  | [] =>
    have closed : (lx.settled.move gap []).brackets = [] := inside
    rw [atEnd_eq closed] at result
    rw [next_of_scan result]
    exact .ends stops inside rfl
  | (bracket, openedAt) :: outer =>
    have unclosed : (lx.settled.move gap []).brackets = (bracket, openedAt) :: outer := inside
    rw [atEnd, unclosed] at result
    rw [next_of_error result]
    exact .unclosed stops inside

/-- A closer is part of the cut whether it matches or not. -/
lemma Tracks.turn_closer {bracket : Bracket} {c : Char}
    (tracks : lx.Tracks options before earlier) (plain : ¬ TakesLine options earlier lx.rest)
    (ahead : gapOf options lx.inParens lx.rest = (gap, c :: rest))
    (longest : LongestToken options bracket.closer [c] [c] rest)
    (result : lx.scan options = (lx.settled.move gap (c :: rest)).closing bracket c rest
      (lx.offset == 0 || !gap.isEmpty)) :
    Turn options before earlier lx (lx.next options).1 := by
  have passes := tracks.passes plain ahead longest (by cases bracket <;> decide)
    (show lx.brackets.tail.map Prod.fst = _ by rw [List.map_tail]; cases bracket <;> rfl)
  match inside : lx.brackets with
  | [] =>
    have closed : (lx.settled.move gap (c :: rest)).brackets = [] := inside
    rw [closing, closeBracket, closed] at result
    rw [next_of_error result]
    exact .unmatched passes rfl inside
  | (opened, openedAt) :: outer =>
    have around : (lx.settled.move gap (c :: rest)).brackets = (opened, openedAt) :: outer := inside
    by_cases same : opened = bracket
    · subst same
      rw [closing_eq around] at result
      rw [inside] at passes
      refine .of_scan result passes ?_
      rw [inside]
      exact .closes rfl
    · simp only [closing, closeBracket, around, if_neg same] at result
      rw [next_of_error result]
      exact .mismatched passes rfl inside same

/-- A lexer follows the cut. -/
theorem Tracks.turn (tracks : lx.Tracks options before earlier) :
    Turn options before earlier lx (lx.next options).1 := by
  -- verbatim text takes the line before any other token is looked for
  by_cases takes : TakesLine options earlier lx.rest
  · exact tracks.turn_line takes
  · have plain : lx.verbatim = .now → Text.dropBlanksEnd (lineAhead options lx.rest) = [] :=
      fun now => by_contra fun filled => takes ⟨tracks.mode.1.symm.trans now, filled⟩
    have scanned := scan_plain plain
    obtain ⟨gap, left, ahead⟩ : ∃ gap left, gapOf options lx.inParens lx.rest = (gap, left) :=
      ⟨_, _, rfl⟩
    have bare := gapOf_rest options lx.inParens lx.rest
    rw [ahead] at scanned bare
    have outcome : Outcome options (lx.settled.move gap left) (lx.offset == 0 || !gap.isEmpty)
      (lx.scan options) := scanned ▸ symbol_outcome
    generalize result : lx.scan options = read at outcome
    cases outcome with
    | ends here =>
      obtain rfl : left = [] := here
      exact tracks.turn_end takes ahead result
    | opens bracket here longest =>
      rename_i c rest
      obtain rfl : left = c :: rest := here
      have nesting : ((bracket, (lx.settled.move gap (c :: rest)).location) ::
          lx.brackets).map Prod.fst = bracket.opener.nest (lx.brackets.map Prod.fst) := by
        cases bracket <;> rfl
      have inner : bracket.opener ≠ .endMarker := by cases bracket <;> decide
      exact .of_scan result (tracks.passes takes ahead longest inner nesting) (.opens rfl)
    | closes bracket here longest =>
      obtain rfl : left = _ := here
      exact tracks.turn_closer takes ahead longest result
    | flat here longest inner nests =>
      rename_i kind lexeme taken rest
      obtain rfl : left = taken ++ rest := here
      have passes := tracks.passes takes ahead longest inner
        (show lx.brackets.map Prod.fst = _ by rw [nests]; rfl)
      exact .of_scan result passes (.flat nests)
    | unterminated unclosed =>
      have unclosed : OpenQuote options left := unclosed
      have stops := tracks.stops takes ahead
        fun same spelled => absurd same (unclosed.no_token spelled)
      have place : (lx.settled.move gap left).location = .behind (before ++ gap) := tracks.place gap
      rw [next_of_error result, place]
      exact .unterminated stops unclosed
    | unexpected here noFeed skips =>
      obtain rfl : left = _ := here
      exact absurd bare (gapOf_cons noFeed skips)

/-- A token that passes leaves less of the text. -/
lemma Passes.shorter (passes : Passes options before earlier lx gap taken token last) :
    last.rest.length < lx.rest.length := by
  have filled := List.length_pos_iff.2 passes.ahead.taken_ne_nil
  rw [passes.ahead.whole, List.length_append, List.length_append]
  omega

/-- The cut goes on or stops where the lexer stands. -/
lemma Tracks.goes_on (tracks : lx.Tracks options before earlier) :
    (∃ gap taken token last, Passes options before earlier lx gap taken token last) ∨
      ∃ gap tail, Stops options earlier lx.rest gap tail ∧
        (tail = [] ∨ OpenQuote options tail) := by
  have turn := tracks.turn
  generalize (lx.next options).1 = result at turn
  cases turn with
  | reads _ passes | unmatched passes | mismatched passes => exact .inl ⟨_, _, _, _, passes⟩
  | ends stops | unclosed stops => exact .inr ⟨_, _, stops, .inl rfl⟩
  | unterminated stops unclosed => exact .inr ⟨_, _, stops, .inr unclosed⟩

/-- What is left can be cut. -/
theorem Tracks.cut (tracks : lx.Tracks options before earlier) :
    ∃ tokens tail, Cut options before earlier lx.rest tokens tail ∧
      (tail = [] ∨ OpenQuote options tail) := by
  -- the text that is left gets shorter with each token
  induction size : lx.rest.length using Nat.strong_induction_on generalizing lx before earlier with
  | h size ih =>
    obtain ⟨gap, taken, token, last, passes⟩ | ⟨gap, tail, stops, ends⟩ := tracks.goes_on
    · obtain ⟨tokens, tail, cut, ends⟩ := ih _ (size ▸ passes.shorter) passes.tracks rfl
      exact ⟨token :: tokens, tail, .token passes.ahead passes.span passes.spaced cut, ends⟩
    · exact ⟨[], tail, .stop stops, ends⟩

/-- A token that is read is the next one of the cut. -/
lemma Tracks.reads (tracks : lx.Tracks options before earlier)
    (read : lx.next options = (.ok token, last)) (inner : token.kind ≠ .endMarker) :
    ∃ gap taken, Passes options before earlier lx gap taken token last ∧
      BracketStep token lx.brackets last.brackets := by
  have turn := tracks.turn
  rw [read] at turn
  cases turn with
  | reads read' passes step =>
    cases read.symm.trans read'
    exact ⟨_, _, passes, step⟩
  | ends _ _ kind => exact absurd kind inner

/-- The tokens that are read are the first ones of the cut. -/
lemma Reads.cut (reads : Reads options lx tokens last) (tracks : lx.Tracks options before earlier) :
    ∃ text, lx.rest = text ++ last.rest ∧ last.Tracks options (before ++ text) (earlier ++ tokens) ∧
      ∀ more tail, Cut options (before ++ text) (earlier ++ tokens) last.rest more tail →
        Cut options before earlier lx.rest (tokens ++ more) tail := by
  induction reads generalizing before earlier with
  | nil =>
    refine ⟨[], rfl, ?_, ?_⟩
    · rwa [List.append_nil, List.append_nil]
    · rw [List.append_nil, List.append_nil]
      exact fun _ _ cut => cut
  | cons read inner _ _ ih =>
    obtain ⟨gap, taken, passes, -⟩ := tracks.reads read inner
    obtain ⟨text, rest, tracks, cuts⟩ := ih passes.tracks
    refine ⟨gap ++ taken ++ text, ?_, ?_, fun more tail cut => ?_⟩
    · rw [passes.ahead.whole, rest]
      simp
    · simpa using tracks
    · refine .token passes.ahead passes.span passes.spaced (cuts more tail ?_)
      simpa using cut

end Lexer

end Scriptlet
