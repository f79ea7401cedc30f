import Mathlib.Data.List.Forall2
import Scriptlet.Proofs.Lexer.Cut

/-!
# Balanced texts

A text is split into tokens exactly if it is balanced: its cut goes up to its end, and the brackets
of the tokens are well nested. The fault of any other text is where its balance is lost
(`tokenize_balanced`).
-/

namespace Scriptlet

/-- The token is no bracket. -/
def Token.IsFlat (token : Token) : Prop :=
  ∀ bracket : Bracket, token.kind ≠ bracket.opener ∧ token.kind ≠ bracket.closer

/-- The brackets among the tokens are well nested: each opener has its closer behind it, with well
nested tokens between them. -/
inductive WellNested : List Token → Prop
  | nil :
    WellNested []
  | flat {token tokens} :
    token.IsFlat →
    WellNested tokens →
    WellNested (token :: tokens)
  | nested {bracket : Bracket} {opener inner closer tokens} :
    opener.kind = bracket.opener →
    WellNested inner →
    closer.kind = bracket.closer →
    WellNested tokens →
    WellNested (opener :: (inner ++ closer :: tokens))

/-- Behind the tokens, brackets are open at these openers, innermost first; apart from them the
tokens are well nested. -/
inductive Open : List Token → List Token → Prop
  | closed {tokens} :
    WellNested tokens →
    Open tokens []
  | opened {bracket : Bracket} {outer stack opener inner} :
    Open outer stack →
    opener.kind = bracket.opener →
    WellNested inner →
    Open (outer ++ opener :: inner) (opener :: stack)

/-- Where the balance of a text is lost that is cut into the tokens up to the tail, and how. -/
inductive Imbalance (options : Options) (text : List Char) (tokens : List Token)
    (tail : List Char) : LexError → Prop
  /-- A closer stands where nothing is open. -/
  | unmatched {front closer back bracket} :
    tokens = front ++ closer :: back →
    Open front [] →
    closer.kind = Bracket.closer bracket →
    Imbalance options text tokens tail ⟨.unmatched bracket, closer.start⟩
  /-- A closer stands where another bracket is the innermost open one. -/
  | mismatched {front closer back bracket opener opened stack} :
    tokens = front ++ closer :: back →
    Open front (opener :: stack) →
    opener.kind = Bracket.opener opened →
    closer.kind = Bracket.closer bracket →
    opened ≠ bracket →
    Imbalance options text tokens tail ⟨.mismatched bracket opened opener.start, closer.start⟩
  /-- The text ends inside a quoted literal. -/
  | unterminated {before stack} :
    Open tokens stack →
    OpenQuote options tail →
    text = before ++ tail →
    Imbalance options text tokens tail ⟨.unterminated, .behind before⟩
  /-- The text ends where a bracket is open. -/
  | unclosed {bracket opener stack} :
    tail = [] →
    Open tokens (opener :: stack) →
    opener.kind = Bracket.opener bracket →
    Imbalance options text tokens tail ⟨.unclosed bracket, opener.start⟩

variable {options : Options} {tokens more stack : List Token} {token : Token}

/-- Well-nested tokens may follow on well-nested tokens. -/
lemma WellNested.append (first : WellNested tokens) (second : WellNested more) :
    WellNested (tokens ++ more) := by
  induction first with
  | nil => exact second
  | flat flat _ ih => exact .flat flat ih
  | nested opens inner closes _ _ ih =>
    rw [List.cons_append, List.append_assoc]
    exact .nested opens inner closes ih

/-- Well-nested tokens open nothing. -/
lemma Open.append (first : Open tokens stack) (second : WellNested more) :
    Open (tokens ++ more) stack := by
  cases first with
  | closed nested => exact .closed (nested.append second)
  | opened outer opens inner =>
    rw [List.append_assoc]
    exact .opened outer opens (inner.append second)

/-- A closer that matches closes the innermost bracket. -/
lemma Open.close {bracket : Bracket} {opener closer : Token}
    (around : Open tokens (opener :: stack)) (opens : opener.kind = bracket.opener)
    (closes : closer.kind = bracket.closer) :
    Open (tokens ++ [closer]) stack := by
  cases around with
  | opened outer _ inner =>
    rw [List.append_assoc]
    exact outer.append (.nested opens inner closes .nil)

section Matching

/-- The brackets that are open behind the token, unless it is a closer that does not match. -/
def Token.match? (brackets : List Bracket) (token : Token) : Option (List Bracket) :=
  match token.kind with
  | .openParen => some (.paren :: brackets)
  | .openBrace => some (.brace :: brackets)
  | .closeParen => if brackets.head? = some .paren then some brackets.tail else none
  | .closeBrace => if brackets.head? = some .brace then some brackets.tail else none
  | _ => some brackets

/-- The brackets that are open behind the tokens, if all closers match. -/
def matchAll? (brackets : List Bracket) (tokens : List Token) : Option (List Bracket) :=
  tokens.foldlM Token.match? brackets

variable {brackets : List Bracket} {bracket : Bracket}

/-- An opening bracket is put on the others. -/
lemma match?_opener (opens : token.kind = bracket.opener) :
    token.match? brackets = some (bracket :: brackets) := by
  cases bracket
  all_goals
    rw [Token.match?, opens]
    rfl

/-- A closing bracket must be that of the innermost one, which it takes away. -/
lemma match?_closer (closes : token.kind = bracket.closer) :
    token.match? brackets =
      if brackets.head? = some bracket then some brackets.tail else none := by
  cases bracket
  all_goals
    rw [Token.match?, closes]
    rfl

/-- Other tokens leave the brackets as they are. -/
lemma match?_flat (flat : token.IsFlat) : token.match? brackets = some brackets := by
  obtain ⟨noParen, noParen'⟩ := flat .paren
  obtain ⟨noBrace, noBrace'⟩ := flat .brace
  rw [Token.match?]
  split
  · contradiction
  · contradiction
  · contradiction
  · contradiction
  · rfl

/-- Tokens are matched one after the other. -/
lemma matchAll?_append (brackets : List Bracket) (tokens more : List Token) :
    matchAll? brackets (tokens ++ more) =
      (matchAll? brackets tokens).bind fun brackets => matchAll? brackets more :=
  List.foldlM_append

/-- The first token is matched first. -/
lemma matchAll?_cons (brackets : List Bracket) (token : Token) (tokens : List Token) :
    matchAll? brackets (token :: tokens) =
      (token.match? brackets).bind fun brackets => matchAll? brackets tokens :=
  List.foldlM_cons

/-- Well nested tokens leave the brackets as they are. -/
lemma WellNested.matchAll? (nested : WellNested tokens) (brackets : List Bracket) :
    Scriptlet.matchAll? brackets tokens = some brackets := by
  induction nested generalizing brackets with
  | nil => rfl
  | flat flat _ ih =>
    rw [matchAll?_cons, match?_flat flat]
    exact ih brackets
  | @nested bracket _ _ _ _ opens _ closes _ ihInner ih =>
    rw [matchAll?_cons, match?_opener opens, Option.bind_some, matchAll?_append, ihInner,
      Option.bind_some, matchAll?_cons, match?_closer closes, List.head?_cons, if_pos rfl]
    exact ih brackets

/-- The brackets at whose openers the tokens are open. -/
lemma Open.matchAll? (around : Open tokens stack) :
    ∃ brackets, Scriptlet.matchAll? [] tokens = some brackets ∧
      List.Forall₂ (fun opener bracket => opener.kind = Bracket.opener bracket) stack brackets := by
  induction around with
  | closed nested => exact ⟨[], nested.matchAll? [], .nil⟩
  | @opened bracket _ _ _ _ _ opens inner ih =>
    obtain ⟨brackets, outer, holds⟩ := ih
    refine ⟨bracket :: brackets, ?_, .cons opens holds⟩
    rw [matchAll?_append, outer, Option.bind_some, matchAll?_cons, match?_opener opens]
    exact inner.matchAll? _

/-- A bracket is told by what opens it. -/
lemma Bracket.opener_inj {bracket other : Bracket} (same : bracket.opener = other.opener) :
    bracket = other := by
  cases bracket <;> cases other <;> first | rfl | cases same

/-- A text that has lost its balance is not balanced. -/
lemma Imbalance.not_balanced {text tail : List Char} {error : LexError}
    (imbalance : Imbalance options text tokens tail error) : ¬ (tail = [] ∧ WellNested tokens) := by
  rintro ⟨done, nested⟩
  have settled := nested.matchAll? []
  cases imbalance with
  | unmatched split outer closes =>
    obtain ⟨brackets, open', holds⟩ := outer.matchAll?
    cases holds
    rw [split, matchAll?_append, open', Option.bind_some, matchAll?_cons, match?_closer closes]
      at settled
    cases settled
  | @mismatched _ _ _ bracket _ opened _ split outer opens closes other =>
    obtain ⟨brackets, open', holds⟩ := outer.matchAll?
    cases holds with
    | @cons _ inner _ _ opens' _ =>
      obtain rfl : inner = opened := Bracket.opener_inj (opens'.symm.trans opens)
      rw [split, matchAll?_append, open', Option.bind_some, matchAll?_cons, match?_closer closes,
        List.head?_cons, if_neg fun same => other (Option.some.inj same)] at settled
      cases settled
  | unterminated _ unclosed =>
    obtain ⟨-, body, missing, -⟩ := unclosed
    rw [done] at missing
    cases missing
  | unclosed _ around =>
    obtain ⟨brackets, open', holds⟩ := around.matchAll?
    rw [settled] at open'
    cases open'
    cases holds

end Matching

/-- A token that leaves the nesting as it is opens and closes nothing. -/
lemma Token.isFlat_of_nest (flat : token.kind.nest = id) : token.IsFlat := by
  intro bracket
  constructor
  · intro opens
    rw [opens] at flat
    have nothing := congrFun flat []
    cases bracket <;> cases nothing
  · intro closes
    rw [closes] at flat
    have nothing := congrFun flat [bracket]
    cases bracket <;> cases nothing

/-- Other tokens leave the brackets that are open as they are. -/
lemma Token.IsFlat.nest (flat : token.IsFlat) (brackets : List Bracket) :
    token.kind.nest brackets = brackets := by
  obtain ⟨noParen, noParen'⟩ := flat .paren
  obtain ⟨noBrace, noBrace'⟩ := flat .brace
  unfold TokenKind.nest
  split
  · contradiction
  · contradiction
  · contradiction
  · contradiction
  · rfl

namespace Lexer

/-- The brackets were opened by the tokens. -/
def Holds (stack : List Token) (brackets : List (Bracket × Location)) : Prop :=
  List.Forall₂ (fun opener bracket => opener.kind = bracket.1.opener ∧ bracket.2 = opener.start)
    stack brackets

variable {lx last : Lexer} {earlier : List Token} {brackets brackets' : List (Bracket × Location)}

/-- A token that is read opens a bracket, closes the innermost one, or is none. -/
lemma BracketStep.around (step : BracketStep token brackets brackets') (around : Open earlier stack)
    (holds : Holds stack brackets) :
    ∃ stack', Open (earlier ++ [token]) stack' ∧ Holds stack' brackets' := by
  cases step with
  | opens opens => exact ⟨token :: stack, .opened around opens .nil, .cons ⟨opens, rfl⟩ holds⟩
  | closes closes =>
    cases holds with
    | @cons opener _ _ _ same holds => exact ⟨_, around.close same.1 closes, holds⟩
  | flat flat => exact ⟨stack, around.append (.flat (token.isFlat_of_nest flat) .nil), holds⟩

/-- The brackets that are open behind tokens that are read are those of the lexer. -/
lemma Reads.around {before : List Char} (reads : Reads options lx tokens last)
    (tracks : lx.Tracks options before earlier) (around : Open earlier stack)
    (holds : Holds stack lx.brackets) :
    ∃ stack', Open (earlier ++ tokens) stack' ∧ Holds stack' last.brackets := by
  induction reads generalizing before earlier stack with
  | nil =>
    rw [List.append_nil]
    exact ⟨stack, around, holds⟩
  | @cons _ _ _ token tokens read inner _ _ ih =>
    obtain ⟨gap, taken, passes, step⟩ := tracks.reads read inner
    obtain ⟨stack, around, holds⟩ := step.around around holds
    rw [List.append_cons]
    exact ih passes.tracks around holds

end Lexer

/-- What a text is split into is its cut, or its balance is lost. -/
lemma tokenize_cut (options : Options) (source : String) :
    ∃ tokens tail, Cut options [] [] source.toList tokens tail ∧
      (tail = [] ∨ OpenQuote options tail) ∧
      ((∃ marker, tokenize options source = .ok (tokens ++ [marker]) ∧ marker.kind = .endMarker ∧
          tail = [] ∧ WellNested tokens) ∨
        ∃ error, tokenize options source = .error error ∧
          Imbalance options source.toList tokens tail error) := by
  obtain ⟨front, last, result, reads, halts⟩ := Lexer.reads_through options (.ofText source)
  obtain ⟨text, whole, tracks, cuts⟩ := reads.cut (Lexer.ofText_tracks source)
  obtain ⟨stack, around, holds⟩ :=
    reads.around (Lexer.ofText_tracks source) (.closed .nil) (List.Forall₂.nil)
  have turn := tracks.turn
  simp only [List.nil_append] at cuts around turn
  -- the brackets that are open where reading stops tell whether and how the balance is lost
  cases halts with
  | @ends marker _ ends kind =>
    rw [ends] at turn
    cases turn with
    | reads _ passes => exact absurd kind passes.ahead.inner
    | ends stops closed =>
      have cut := cuts [] [] (.stop stops)
      have split := tokenize_ends reads (.ends ends kind)
      rw [List.append_nil] at cut
      rw [closed] at holds
      cases holds
      cases around with
      | closed nested => exact ⟨front, [], cut, .inl rfl, .inl ⟨marker, split, kind, rfl, nested⟩⟩
  | @fails error _ fails =>
    have failed := tokenize_fails reads (.fails fails)
    rw [fails] at turn
    cases turn with
    | unmatched passes closes closed =>
      obtain ⟨more, tail, cut, ends⟩ := passes.tracks.cut
      have cut := cuts _ _ (.token passes.ahead passes.span passes.spaced cut)
      rw [closed] at holds
      cases holds
      exact ⟨_, tail, cut, ends, .inr ⟨_, failed, .unmatched rfl around closes⟩⟩
    | mismatched passes closes inside other =>
      obtain ⟨more, tail, cut, ends⟩ := passes.tracks.cut
      have cut := cuts _ _ (.token passes.ahead passes.span passes.spaced cut)
      rw [inside] at holds
      cases holds with
      | cons opens _ =>
        obtain ⟨opens, rfl⟩ := opens
        exact ⟨_, tail, cut, ends, .inr ⟨_, failed, .mismatched rfl around opens closes other⟩⟩
    | unclosed stops inside =>
      have cut := cuts [] [] (.stop stops)
      rw [List.append_nil] at cut
      rw [inside] at holds
      cases holds with
      | cons opens _ =>
        obtain ⟨opens, rfl⟩ := opens
        exact ⟨front, [], cut, .inl rfl, .inr ⟨_, failed, .unclosed rfl around opens⟩⟩
    | @unterminated gap tail stops unclosed =>
      have cut := cuts [] tail (.stop stops)
      have split : source.toList = text ++ gap ++ tail := by
        rw [List.append_assoc, ← stops.whole]
        exact whole
      rw [List.append_nil] at cut
      exact ⟨front, tail, cut, .inr unclosed,
        .inr ⟨_, failed, .unterminated around unclosed split⟩⟩

/-- Every character is a blank (a line feed is one), starts a comment or a quoted literal, is the
first one of a sign, or belongs to a plain literal. -/
lemma character_cases (options : Options) (c : Char) :
    Text.isBlank c ∨ (options.comments ∧ c = '#') ∨ (options.quotes ∧ c = '"') ∨ c ∈ signs ∨
      options.isLiteral c := by
  by_cases sign : c ∈ signs
  · exact .inr (.inr (.inr (.inl sign)))
  cases plain : options.isLiteral c with
  | true => exact .inr (.inr (.inr (.inr rfl)))
  | false =>
    cases quote : options.quotes && c == '"' with
    | true => exact .inr (.inr (.inl (by simpa using quote)))
    | false =>
      obtain blank | hash := Lexer.blank_of_not_isLiteral sign quote plain
      · exact .inl blank
      · exact .inr (.inl hash)

namespace Lexer

variable {lx : Lexer} {spaced : Bool} {c : Char} {place : Location}

/-- A bracket that closes something else is not an unexpected character. -/
lemma closing_expected {bracket : Bracket} {d : Char} {rest : List Char} :
    (lx.closing bracket d rest spaced).1 ≠ .error ⟨.unexpected c, place⟩ := by
  intro failed
  rw [closing] at failed
  split at failed
  case h_1 closed =>
    cases failed
    rw [closeBracket] at closed
    split at closed
    · cases closed
    · split at closed <;> cases closed
  case h_2 => cases failed

/-- Where no gap is ahead, the next character has its use. -/
lemma Outcome.expected {read : Except LexError Token × Lexer} {inParens : Bool}
    (outcome : Outcome options lx spaced read)
    (bare : gapOf options inParens lx.rest = ([], lx.rest)) :
    read.1 ≠ .error ⟨.unexpected c, place⟩ := by
  intro failed
  cases outcome with
  | ends =>
    rw [atEnd] at failed
    split at failed <;> cases failed
  | closes => exact closing_expected failed
  | opens | flat | unterminated => cases failed
  | unexpected here noFeed skips =>
    rw [here] at bare
    exact gapOf_cons noFeed skips bare

/-- Every character has its use, wherever the lexer stands. -/
lemma next_expected (options : Options) (lx : Lexer) (c : Char) (place : Location) :
    (lx.next options).1 ≠ .error ⟨.unexpected c, place⟩ := by
  intro failed
  have failed : (lx.scan options).1 = .error ⟨.unexpected c, place⟩ := by
    rw [next] at failed
    split at failed
    case h_1 => cases failed
    case h_2 scanned => rwa [scanned]
  by_cases plain : lx.verbatim = .now → Text.dropBlanksEnd (lineAhead options lx.rest) = []
  · rw [scan_plain plain] at failed
    exact symbol_outcome.expected (gapOf_rest options lx.inParens lx.rest) failed
  · obtain ⟨now, filled⟩ := Classical.not_imp.1 plain
    have taken : ¬ (Text.dropBlanksEnd (lx.verbatimText options)).isEmpty :=
      fun blank => filled (List.isEmpty_iff.1 blank)
    rw [scan_now now, if_neg taken] at failed
    cases failed

end Lexer

/-- There is one way to cut a text into tokens, up to its end or to a quoted literal that is not
ended. The text is split into tokens exactly if the cut goes up to its end and the brackets of the
tokens are well nested; it is then split into the tokens of the cut and the end marker. Any other
text fails where its balance is lost: at the first closer that does not match the innermost open
bracket, at the quote that opens the literal, or at the innermost bracket that is open at the end.
No lexer meets a character that it does not expect, since every one has its use. -/
theorem tokenize_balanced (options : Options) (source : String) :
    ∃ tokens tail,
      (∀ tokens' tail', Cut options [] [] source.toList tokens' tail' ↔
        tokens' = tokens ∧ tail' = tail) ∧
      (tail = [] ∨ OpenQuote options tail) ∧
      ((∃ all, tokenize options source = .ok all) ↔ tail = [] ∧ WellNested tokens) ∧
      (∀ all, tokenize options source = .ok all →
        ∃ marker, all = tokens ++ [marker] ∧ marker.kind = .endMarker) ∧
      (∀ error, tokenize options source = .error error →
        Imbalance options source.toList tokens tail error) ∧
      (∀ (lx : Lexer) (c : Char) (place : Location),
        (lx.next options).1 ≠ .error ⟨.unexpected c, place⟩) ∧
      ∀ c : Char, Text.isBlank c ∨ (options.comments ∧ c = '#') ∨ (options.quotes ∧ c = '"') ∨
        c ∈ signs ∨ options.isLiteral c := by
  obtain ⟨tokens, tail, cut, ends, outcome⟩ := tokenize_cut options source
  refine ⟨tokens, tail, fun tokens' tail' => ⟨cut.unique, ?_⟩, ends, ?_, ?_, ?_, ?_,
    character_cases options⟩
  · rintro ⟨rfl, rfl⟩
    exact cut
  · obtain ⟨marker, split, -, balanced⟩ | ⟨error, failed, imbalance⟩ := outcome
    · exact ⟨fun _ => balanced, fun _ => ⟨_, split⟩⟩
    · refine ⟨?_, fun balanced => absurd balanced imbalance.not_balanced⟩
      rintro ⟨all, split⟩
      cases failed.symm.trans split
  · intro all split
    obtain ⟨marker, split', kind, -⟩ | ⟨error, failed, -⟩ := outcome
    · cases split'.symm.trans split
      exact ⟨marker, rfl, kind⟩
    · cases failed.symm.trans split
  · intro error failed
    obtain ⟨marker, split, -⟩ | ⟨error', failed', imbalance⟩ := outcome
    · cases failed.symm.trans split
    · cases failed'.symm.trans failed
      exact imbalance
  · exact fun lx c place => lx.next_expected options c place

/-- A brace that is quoted closes nothing, and one in parentheses does not match. -/
theorem brace_in_parens_imbalanced :
    ∃ tokens tail, Cut {} [] [] "f \x7b\n(a \"\x7d\"\n\x7d".toList tokens tail ∧
      Imbalance {} "f \x7b\n(a \"\x7d\"\n\x7d".toList tokens tail
        ⟨.mismatched .brace .paren ⟨1, 0⟩, ⟨2, 0⟩⟩ := by
  obtain ⟨tokens, tail, cut, -, -, -, imbalance, -⟩ :=
    tokenize_balanced {} "f \x7b\n(a \"\x7d\"\n\x7d"
  exact ⟨tokens, tail, (cut tokens tail).2 ⟨rfl, rfl⟩, imbalance _ rfl⟩

end Scriptlet
