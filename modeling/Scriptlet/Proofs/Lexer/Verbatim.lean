import Scriptlet.Proofs.Lexer.Counting
import Scriptlet.Proofs.Lexer.Extension

/-!
# Verbatim text

Where verbatim text is due, the text up to the end of the line or of the statement is taken,
trimmed, as one literal (`next_due`), and the token behind it ends the statement or opens a block,
unless line feeds separate nothing (`next_stops`).
-/

namespace Scriptlet

/-- The text that a trigger takes in front of `rest`: all of the line and the statement, without the
blanks at its ends. -/
def verbatimAhead (rest : List Char) : List Char :=
  Text.dropBlanksEnd (Text.dropBlanks (rest.takeWhile fun c => !verbatimEnds.contains c))

/-- The kinds of the tokens in front of which verbatim text ends. -/
def stopKinds : List TokenKind :=
  [.separator, .openBrace, .closeBrace, .endMarker]

/-- Verbatim text ends in front of the text. -/
def StopsVerbatim (rest : List Char) : Prop :=
  ∀ c ∈ rest.head?, c ∈ verbatimEnds

variable {options : Options} {source : String} {rest gap : List Char}

/-- What is dropped goes as far as it can. -/
lemma head_dropWhile {α : Type} (p : α → Bool) (values : List α) :
    ∀ value ∈ (values.dropWhile p).head?, p value = false := by
  intro value first
  have stops := List.head?_dropWhile_not p values
  rwa [Option.mem_def.1 first] at stops

/-- Verbatim text to the end of its line ends at the characters that end statements. -/
lemma isVerbatim_eq (toLine : options.verbatimToEnd = false) :
    options.isVerbatim = fun c => !verbatimEnds.contains c := by
  funext c
  rw [Options.isVerbatim, toLine, Bool.false_or]

/-- No character that ends verbatim text is a blank that never separates. -/
lemma not_inline {c : Char} (stops : c ∈ verbatimEnds) : isInlineBlank c = false := by
  have none : verbatimEnds.all (fun c => !isInlineBlank c) = true := by decide
  simpa using List.all_eq_true.1 none c stops

/-- What starts another token is not part of a literal. -/
lemma starter_not_isLiteral {c : Char} (starts : c ∈ Lexer.starters) :
    options.isLiteral c = false := by
  have apart : Lexer.starters.all (fun c => Text.isBlank c || signs.contains c) = true := by decide
  have other : (!Text.isBlank c && !signs.contains c) = false := by
    rw [← Bool.not_or, List.all_eq_true.1 apart c starts]
    rfl
  rw [Options.isLiteral, other]
  rfl

/-- What ends verbatim text is not part of a literal. -/
lemma not_isLiteral {c : Char} (stops : c ∈ verbatimEnds) : options.isLiteral c = false := by
  have starts : verbatimEnds ⊆ Lexer.starters := by decide
  exact starter_not_isLiteral (starts stops)

/-- The blanks in front of verbatim text do not reach behind the line. -/
lemma takeWhile_dropBlanks (rest : List Char) :
    (rest.dropWhile isInlineBlank).takeWhile (fun c => !verbatimEnds.contains c) =
      Text.dropBlanks (rest.takeWhile fun c => !verbatimEnds.contains c) := by
  induction rest with
  | nil => rfl
  | cons c rest ih =>
    by_cases stops : c ∈ verbatimEnds
    · simp [not_inline stops, stops, Text.dropBlanks]
    · have noFeed : c ≠ '\n' := fun same => stops (same ▸ List.mem_cons_self)
      by_cases blank : Text.isBlank c
      · simpa [isInlineBlank, noFeed, blank, stops, Text.dropBlanks] using ih
      · simp [isInlineBlank, blank, stops, Text.dropBlanks]

/-- Nothing is skipped in front of what ends verbatim text, unless line feeds separate nothing. -/
lemma Gap.eq_nil {inParens : Bool} (skipped : Gap options inParens rest gap)
    (feeds : options.newlineSeparates = true) (outside : inParens = false)
    (stops : StopsVerbatim (gap ++ rest)) : gap = [] := by
  cases skipped with
  | nil => rfl
  | blank blank _ =>
    rw [not_inline (stops _ rfl)] at blank
    cases blank
  | feed free _ => simp [feeds, outside] at free
  | comment _ _ _ _ => exact absurd (stops '#' rfl) (by decide)

/-- The tokens that begin with what ends verbatim text. -/
lemma Spelled.stops {kind : TokenKind} {lexeme taken : List Char}
    (spelled : Spelled options False rest kind lexeme taken)
    (stops : StopsVerbatim (taken ++ rest)) : kind ∈ stopKinds := by
  cases spelled with
  | ending => decide
  | sign sign =>
    cases sign with
    | feed | semicolon | openBrace | closeBrace => decide
    | openParen | closeParen | dollar | vector | caret | bang =>
      exact absurd (stops _ rfl) (by decide)
  | literal filled plain =>
    obtain ⟨c, taken, rfl⟩ := List.exists_cons_of_ne_nil filled
    have literal := plain c List.mem_cons_self
    rw [not_isLiteral (stops c rfl)] at literal
    cases literal
  | quoted => exact absurd (stops '"' rfl) (by decide)
  | verbatim due => exact due.elim

/-- A literal is verbatim text that is due, or plain. -/
lemma Spelled.of_literal {due : Prop} {kind : TokenKind} {lexeme taken : List Char}
    (spelled : Spelled options due rest kind lexeme taken) (literal : kind = .literal) :
    due ∨ lexeme = taken ∧ taken ≠ [] ∧ ∀ c ∈ taken, options.isLiteral c := by
  cases spelled with
  | sign sign => cases literal ▸ sign
  | literal filled plain => exact .inr ⟨rfl, filled, plain⟩
  | verbatim due => exact .inl due
  | ending | quoted => cases literal

namespace Lexer

variable {lx mid last : Lexer} {token : Token} {spaced : Bool} {literals : List Token}

/-- Verbatim text is what is ahead up to its end, without blanks around it. -/
lemma dropBlanksEnd_verbatimText (toLine : options.verbatimToEnd = false) :
    Text.dropBlanksEnd (lx.verbatimText options) = verbatimAhead lx.rest := by
  rw [verbatimAhead, ← takeWhile_dropBlanks, verbatimText, isVerbatim_eq toLine]
  rfl

/-- What ends verbatim text is read as a separator, a brace or the end, unless it is skipped. -/
lemma ordinary_stops (stops : StopsVerbatim lx.rest)
    (read : lx.ordinary options spaced = (.ok token, last)) :
    token.kind ∈ stopKinds ∨
      token.spaced = true ∧ ¬ (options.newlineSeparates = true ∧ lx.inParens = false) := by
  obtain ⟨gap, taken, more⟩ := ordinary_taken False read
  rw [more.rest] at stops
  cases gap with
  | nil => exact .inl (more.spelled.stops stops)
  | cons c gap =>
    refine .inr ⟨by simp [more.spaced], fun separates => ?_⟩
    cases more.skipped.eq_nil separates.1 separates.2 stops

/-- A plain literal goes on as long as it can. -/
lemma symbol_ends (read : lx.symbol options spaced = (.ok token, last))
    (kind : token.kind = .literal) : ∀ c ∈ last.rest.head?, options.isLiteral c = false := by
  obtain ⟨taken, more⟩ := symbol_taken False read
  obtain ⟨-, filled, plain⟩ := (more.spelled.of_literal kind).resolve_left id
  obtain ⟨c, taken, rfl⟩ := List.exists_cons_of_ne_nil filled
  have literal : options.isLiteral c := plain c List.mem_cons_self
  have noQuote : (options.quotes && c = '"') = false := by
    simp only [Options.isLiteral, Bool.and_eq_true, Bool.not_eq_true'] at literal
    simpa using literal.2
  obtain ⟨text, here⟩ : ∃ text, lx.rest = c :: text := ⟨_, more.rest⟩
  have other : c ∉ starters := fun starts => by
    cases literal.symm.trans (starter_not_isLiteral starts)
  rw [symbol_literal here other, noQuote, if_neg Bool.false_ne_true] at read
  split at read
  case h_1 => cases read
  case h_2 =>
    cases read
    exact head_dropWhile options.isLiteral (c :: text)

/-- Verbatim text is taken up to what ends it. -/
lemma stops_dropWhile (toLine : options.verbatimToEnd = false) (rest : List Char) :
    StopsVerbatim (rest.dropWhile options.isVerbatim) := by
  intro c first
  have stops := head_dropWhile options.isVerbatim rest c first
  rw [isVerbatim_eq toLine] at stops
  simpa using stops

/-- Behind a literal there is nothing that could be part of one. -/
lemma next_ends (toLine : options.verbatimToEnd = false)
    (read : lx.next options = (.ok token, last)) (kind : token.kind = .literal) :
    ∀ c ∈ last.rest.head?, options.isLiteral c = false := by
  obtain ⟨mid, scanned, rfl⟩ := next_ok read
  rw [trackTriggers_rest]
  by_cases due : lx.verbatim = .now
  · rw [scan_now due] at scanned
    split at scanned
    case isTrue => exact symbol_ends scanned kind
    case isFalse =>
      cases scanned
      exact fun c first => not_isLiteral (stops_dropWhile toLine _ c first)
  · rw [scan_ordinary due] at scanned
    exact symbol_ends scanned kind

/-- A literal that is read as an ordinary token behind a literal has something in front of it. -/
lemma next_spaced (ends : ∀ c ∈ lx.rest.head?, options.isLiteral c = false)
    (later : lx.verbatim ≠ .now) (read : lx.next options = (.ok token, last))
    (kind : token.kind = .literal) : token.spaced = true := by
  obtain ⟨mid, scanned, rfl⟩ := next_ok read
  obtain ⟨gap, taken, more⟩ := scan_taken scanned
  obtain ⟨-, filled, plain⟩ := (more.spelled.of_literal kind).resolve_left later
  have here := more.rest
  cases gap with
  | nil =>
    obtain ⟨c, taken, rfl⟩ := List.exists_cons_of_ne_nil filled
    have first := ends c (by rw [here]; rfl)
    rw [plain c List.mem_cons_self] at first
    cases first
  | cons c gap => simp [more.spaced]

/-- A trigger is open no longer behind the token that it was due at. -/
lemma trackTriggers_now (now : lx.verbatim = .now) :
    (lx.trackTriggers options token).verbatim = .off := by
  rw [trackTriggers, now]

/-- The token is the verbatim text ahead, and the lexer stands behind it. -/
structure TakesText (lx : Lexer) (token : Token) (last : Lexer) : Prop where
  filled : verbatimAhead lx.rest ≠ []
  kind : token.kind = .literal
  lexeme : token.lexeme.toList = verbatimAhead lx.rest
  off : last.verbatim = .off
  brackets : last.brackets = lx.brackets
  stops : StopsVerbatim last.rest

/-- Verbatim text is read where it is due. If there is none, an ordinary token is read in front of
what would end it. -/
lemma next_due (toLine : options.verbatimToEnd = false) (due : lx.verbatim = .now)
    (read : lx.next options = (.ok token, last)) :
    lx.TakesText token last ∨
      verbatimAhead lx.rest = [] ∧ ∃ (start mid : Lexer) (spaced : Bool),
        start.brackets = lx.brackets ∧ StopsVerbatim start.rest ∧
        start.ordinary options spaced = (.ok token, mid) := by
  obtain ⟨mid, scanned, rfl⟩ := next_ok read
  rw [scan_now due] at scanned
  split at scanned
  case isTrue blank =>
    have none := List.isEmpty_iff.1 blank
    refine .inr ⟨by rw [← dropBlanksEnd_verbatimText toLine, none], ?_⟩
    refine ⟨{ lx.afterBlanks with verbatim := .off }, mid, lx.blanksSpaced, rfl, ?_, scanned⟩
    show StopsVerbatim lx.afterBlanks.rest
    rw [← verbatimText_left (verbatimText_blank toLine none)]
    exact stops_dropWhile toLine _
  case isFalse filled =>
    cases scanned
    refine .inl ⟨?_, rfl, ?_, trackTriggers_now due, trackTriggers_brackets, ?_⟩
    · rw [← dropBlanksEnd_verbatimText toLine]
      exact fun none => filled (List.isEmpty_iff.2 none)
    · rw [← dropBlanksEnd_verbatimText toLine]
      exact String.toList_ofList
    · rw [trackTriggers_rest]
      exact stops_dropWhile toLine _

/-- Lexers with the same brackets are alike between parentheses. -/
lemma inParens_congr (same : mid.brackets = lx.brackets) : mid.inParens = lx.inParens := by
  rw [inParens, inParens, same]

/-- Behind verbatim text there is a token that ends the statement or opens a block, unless line
feeds separate nothing. -/
lemma next_stops (off : lx.verbatim = .off) (stops : StopsVerbatim lx.rest)
    (read : lx.next options = (.ok token, last)) :
    token.kind ∈ stopKinds ∨
      token.spaced = true ∧ ¬ (options.newlineSeparates = true ∧ lx.inParens = false) := by
  obtain ⟨mid, scanned, -⟩ := next_ok read
  rw [scan_ordinary (by simp [off])] at scanned
  exact ordinary_stops stops scanned

/-- An ordinary literal holds none but the characters of plain literals. -/
lemma ordinary_plain (read : lx.ordinary options spaced = (.ok token, last))
    (kind : token.kind = .literal) : ∀ c ∈ token.lexeme.toList, options.isLiteral c := by
  obtain ⟨gap, taken, more⟩ := ordinary_taken False read
  obtain ⟨same, -, plain⟩ := (more.spelled.of_literal kind).resolve_left id
  exact same ▸ plain

/-- A literal with a character that no plain literal holds is verbatim text that was due. -/
lemma due_of_strange (toLine : options.verbatimToEnd = false)
    (read : lx.next options = (.ok token, last)) (kind : token.kind = .literal)
    (strange : ∃ c ∈ token.lexeme.toList, options.isLiteral c = false) :
    lx.verbatim = .now ∧ lx.TakesText token last := by
  obtain ⟨c, inside, other⟩ := strange
  have extraordinary : ∀ {start mid : Lexer} {spaced : Bool},
      start.ordinary options spaced ≠ (.ok token, mid) := by
    intro start mid spaced plain
    cases (ordinary_plain plain kind c inside).symm.trans other
  have due : lx.verbatim = .now := by
    by_contra later
    obtain ⟨mid, scanned, -⟩ := next_ok read
    rw [scan_ordinary later] at scanned
    exact extraordinary scanned
  refine ⟨due, (next_due toLine due read).resolve_right ?_⟩
  rintro ⟨-, start, mid, spaced, -, -, plain⟩
  exact extraordinary plain

/-- The literals that are counted have something in front of them. -/
lemma Reads.literals_spaced (toLine : options.verbatimToEnd = false)
    (reads : lx.Reads options literals last) (kinds : ∀ t ∈ literals, t.kind = .literal)
    (waits : lx.verbatim = .missing literals.length)
    (ends : ∀ c ∈ lx.rest.head?, options.isLiteral c = false) :
    ∀ t ∈ literals, t.spaced = true := by
  induction reads with
  | nil => exact fun _ inside => absurd inside List.not_mem_nil
  | @cons here _ _ token tokens read _ _ _ ih =>
    obtain ⟨literal, kinds⟩ := List.forall_mem_cons.1 kinds
    rw [List.length_cons] at waits
    have later : here.verbatim ≠ .now := by simp [waits, Verbatim.missing]
    have behind := ih kinds (next_counts waits read literal) (next_ends toLine read literal)
    exact List.forall_mem_cons.2 ⟨next_spaced ends later read literal, behind⟩

/-- Verbatim text was due behind a trigger and the literals that it counts, which are spaced. -/
lemma Reads.counted {earlier : List Token} (toLine : options.verbatimToEnd = false)
    (reads : (ofText source).Reads options earlier lx) (due : lx.verbatim = .now) :
    ∃ before name literals, earlier = before ++ name :: literals ∧ StartsStatement before ∧
      name.kind = .literal ∧ (∀ t ∈ literals, t.kind = .literal ∧ t.spaced = true) ∧
      options.triggers.get? name.lexeme = some literals.length := by
  obtain ⟨text, follows, -, -⟩ := reads.tiling (ofText_follows source)
  obtain ⟨before, name, literals, rfl, starts, kind, kinds, trigger⟩ := follows.attends.due due
  rw [Nat.add_zero] at trigger
  obtain ⟨start, front, counted⟩ := reads.split
  have seeks := seeks_of_due front starts counted (List.forall_mem_cons.2 ⟨kind, kinds⟩) due
  cases counted with
  | cons read _ _ rest =>
    have waits := seeks.next read kind trigger
    have spaced := rest.literals_spaced toLine kinds waits (next_ends toLine read kind)
    exact ⟨before, name, literals, rfl, starts, kind, fun t inside =>
      ⟨kinds t inside, spaced t inside⟩, trigger⟩

/-- The lexer stands where the last token that it has read ends. -/
lemma Reads.stands {earlier : List Token}
    (reads : (ofText source).Reads options (earlier ++ [token]) lx) :
    ∃ written, source.toList = written ++ lx.rest ∧ Location.behind written = token.span.stop := by
  obtain ⟨text, follows, left, -⟩ := reads.tiling (ofText_follows source)
  obtain ⟨start, -, read⟩ := reads.unsnoc
  obtain ⟨mid, scanned, rfl⟩ := next_ok read
  obtain ⟨gap, taken, more⟩ := scan_taken scanned
  have location : _ = Location.behind text := follows.location
  exact ⟨text, left, by rw [← location, trackTriggers_location, more.stop]⟩

end Lexer

end Scriptlet
