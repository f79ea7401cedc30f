import Scriptlet.Proofs.Lexer.Verbatim

/-!
# The longest gap, the longest token

A gap goes as far as a gap can, and the token behind it is the longest one that is written there.
Behind a gap, every text but the empty one and a quoted literal that no quote ends starts with a
token (`Lexer.symbol_outcome`): each character is a blank, starts a comment or a quoted literal, is
a sign, or belongs to a plain literal.
-/

namespace Scriptlet

/-- No longer gap stands where the gap does. -/
structure LongestGap (options : Options) (inParens : Bool) (gap rest : List Char) : Prop where
  skipped : Gap options inParens rest gap
  longest {other left : List Char} :
    other ++ left = gap ++ rest → Gap options inParens left other → other.length ≤ gap.length

/-- No longer token is written where the token is, verbatim text aside. -/
structure LongestToken (options : Options) (kind : TokenKind) (lexeme taken rest : List Char) :
    Prop where
  spelled : Spelled options False rest kind lexeme taken
  longest {kind' : TokenKind} {lexeme' other left : List Char} :
    other ++ left = taken ++ rest → Spelled options False left kind' lexeme' other →
      other.length ≤ taken.length

/-- The text starts with a quoted literal that no quote ends. -/
def OpenQuote (options : Options) (text : List Char) : Prop :=
  options.quotes ∧ ∃ body, text = '"' :: body ∧
    ∀ inner value rest, Unescapes inner value → body ≠ inner ++ '"' :: rest

variable {options : Options} {inParens : Bool} {gap taken rest text : List Char}

section Gaps

variable (options inParens)

/-- The gap that a text starts with, and the text behind it. -/
def gapOf (text : List Char) : List Char × List Char :=
  readGap options.comments (!options.newlineSeparates || inParens) false text

/-- A gap and what is behind it are the text. -/
lemma gapOf_append (text : List Char) :
    (gapOf options inParens text).1 ++ (gapOf options inParens text).2 = text :=
  readGap_append ..

end Gaps

/-- Where a gap is, the gap that is read starts with it. -/
lemma Gap.read (skipped : Gap options inParens rest gap) :
    gapOf options inParens (gap ++ rest) =
      (gap ++ (gapOf options inParens rest).1, (gapOf options inParens rest).2) := by
  induction skipped with
  | nil => rfl
  | @blank c gap blank _ ih =>
    obtain ⟨noFeed, blank⟩ : c ≠ '\n' ∧ Text.isBlank c := by simpa [isInlineBlank] using blank
    rw [List.cons_append, gapOf, readGap, if_neg noFeed, if_pos (by simp [blank])]
    rw [gapOf] at ih
    rw [ih]
    rfl
  | @feed gap free _ ih =>
    have free : (!options.newlineSeparates || inParens) = true := by simpa using free
    rw [List.cons_append, gapOf, readGap, if_pos rfl, if_pos free]
    rw [gapOf] at ih
    rw [ih]
    rfl
  | @comment text gap comments line ends _ ih =>
    have unspaced : Text.isBlank '#' = false := by decide
    have inside : ∀ c ∈ text, (c != '\n') = true := by
      intro c inside
      have other : c ≠ '\n' := ne_of_mem_of_not_mem inside line
      simpa using other
    have stops : (gap ++ rest).takeWhile (· != '\n') = [] := by
      cases here : gap ++ rest with
      | nil => rfl
      | cons c left => simp [ends c (by rw [here]; rfl)]
    have stays : (gap ++ rest).dropWhile (· != '\n') = gap ++ rest := by
      have whole := List.takeWhile_append_dropWhile (p := (· != '\n')) (l := gap ++ rest)
      rwa [stops] at whole
    rw [List.cons_append, gapOf, readGap, if_neg (by simp), unspaced, if_neg (by simp),
      if_pos (by simp [comments]), readGap_comment, List.append_assoc,
      List.takeWhile_append_of_pos inside, List.dropWhile_append_of_pos inside, stops, stays]
    rw [gapOf] at ih
    rw [ih]
    simp [gapOf]

/-- The gap that is read is the longest one. -/
lemma gapOf_longest (options : Options) (inParens : Bool) (text : List Char) :
    LongestGap options inParens (gapOf options inParens text).1
      (gapOf options inParens text).2 := by
  refine ⟨readGap_gap options inParens false text, fun {other left} same skipped => ?_⟩
  have read := skipped.read
  rw [same, gapOf_append] at read
  rw [read, List.length_append]
  exact Nat.le_add_right _ _

/-- The longest gap is the one that is read. -/
lemma LongestGap.read (ahead : LongestGap options inParens gap rest) :
    gapOf options inParens (gap ++ rest) = (gap, rest) := by
  have read := ahead.skipped.read
  have longest := ahead.longest (gapOf_append options inParens (gap ++ rest))
    (gapOf_longest options inParens (gap ++ rest)).skipped
  have nothing : (gapOf options inParens rest).1 = [] := by
    rw [read, List.length_append] at longest
    exact List.length_eq_zero_iff.1 (by omega)
  have left := gapOf_append options inParens rest
  rw [nothing, List.nil_append] at left
  rw [read, nothing, left, List.append_nil]

/-- A text that starts with a blank or a comment starts with a gap. -/
lemma gapOf_cons {c : Char} (noFeed : c ≠ '\n')
    (skips : Text.isBlank c ∨ options.comments ∧ c = '#') :
    gapOf options inParens (c :: rest) ≠ ([], c :: rest) := by
  intro nothing
  rw [gapOf, readGap, if_neg noFeed] at nothing
  split at nothing
  case isTrue => cases nothing
  case isFalse solid =>
    obtain blank | ⟨comments, hash⟩ := skips
    · exact solid (by simp [blank])
    · rw [if_pos (by simp [comments, hash])] at nothing
      cases nothing

/-- Behind a gap there is no gap. -/
lemma gapOf_rest (options : Options) (inParens : Bool) (text : List Char) :
    gapOf options inParens (gapOf options inParens text).2 =
      ([], (gapOf options inParens text).2) := by
  have read := (gapOf_longest options inParens text).skipped.read
  rw [gapOf_append] at read
  have first := congrArg Prod.fst read
  have second := congrArg Prod.snd read
  exact Prod.ext (List.append_right_eq_self.1 first.symm) second.symm

section Tokens

variable {kind : TokenKind} {lexeme more other left body value : List Char}

/-- Every sign is one character, but for the one that marks vectors. -/
lemma Sign.shape (sign : Sign kind taken) : taken = ['$', '^'] ∨ ∃ c, taken = [c] := by
  cases sign with
  | vector => exact .inl rfl
  | _ => exact .inr ⟨_, rfl⟩

/-- A sign starts with one of the characters that start signs. -/
lemma Sign.starts (sign : Sign kind taken) : ∃ c more, taken = c :: more ∧ c ∈ Lexer.starters := by
  cases sign
  all_goals exact ⟨_, _, rfl, by decide⟩

/-- No sign starts a plain literal. -/
lemma Sign.not_literal (sign : Sign kind taken) (filled : other ≠ [])
    (plain : ∀ c ∈ other, options.isLiteral c) (same : other ++ left = taken ++ rest) : False := by
  obtain ⟨c, more, rfl, starts⟩ := sign.starts
  obtain ⟨d, other, rfl⟩ := List.exists_cons_of_ne_nil filled
  obtain ⟨rfl, -⟩ := List.cons.inj same
  cases (plain d List.mem_cons_self).symm.trans (starter_not_isLiteral starts)

/-- No sign starts a quoted literal. -/
lemma Sign.not_quoted (sign : Sign kind taken) (same : '"' :: more = taken ++ rest) : False := by
  obtain ⟨c, others, rfl, starts⟩ := sign.starts
  obtain ⟨rfl, -⟩ := List.cons.inj same
  exact absurd starts (by decide)

/-- With quoted literals, no quote starts a plain one. -/
lemma quoted_not_literal (quotes : options.quotes = true) (filled : other ≠ [])
    (plain : ∀ c ∈ other, options.isLiteral c) (same : other ++ left = '"' :: more) : False := by
  obtain ⟨c, other, rfl⟩ := List.exists_cons_of_ne_nil filled
  obtain ⟨rfl, -⟩ := List.cons.inj same
  have literal := plain '"' List.mem_cons_self
  simp [Options.isLiteral, quotes] at literal

/-- Two quoted literals at one place are the same. -/
lemma Unescapes.unique {body' value' : List Char} (unescapes : Unescapes body value)
    (unescapes' : Unescapes body' value') (same : body' ++ '"' :: left = body ++ '"' :: rest) :
    body' = body ∧ value' = value := by
  have read := unescapes'.read left
  rw [same, unescapes.read rest] at read
  obtain ⟨rfl, whole, -⟩ : value = value' ∧ body ++ ['"'] = body' ++ ['"'] ∧ rest = left := by
    simpa using read
  exact ⟨(List.append_cancel_right whole).symm, rfl⟩

/-- A sign is the longest token, unless it is the first half of one of two characters. -/
lemma Sign.longest (sign : Sign kind taken) (whole : taken = ['$'] → rest.head? ≠ some '^') :
    LongestToken options kind taken taken rest := by
  refine ⟨.sign sign, fun {kind' lexeme' other left} same spelled => ?_⟩
  cases spelled with
  | ending => exact Nat.zero_le _
  | sign sign' =>
    obtain rfl | ⟨d, rfl⟩ := sign'.shape
    · obtain rfl | ⟨e, rfl⟩ := sign.shape
      · exact Nat.le_refl _
      · obtain ⟨rfl, behind⟩ := List.cons.inj same
        have caret : '^' :: left = rest := behind
        exact absurd (by rw [← caret]; rfl) (whole rfl)
    · exact List.length_pos_iff.2 sign.ne_nil
  | literal filled plain => exact (sign.not_literal filled plain same).elim
  | quoted => exact (sign.not_quoted same).elim
  | verbatim due => exact due.elim

/-- A quoted literal ends with its closing quote. -/
lemma quoted_longest (quotes : options.quotes = true) (unescapes : Unescapes body value) :
    LongestToken options .quoted value ('"' :: (body ++ ['"'])) rest := by
  refine ⟨.quoted quotes unescapes, fun {kind' lexeme' other left} same spelled => ?_⟩
  cases spelled with
  | ending => exact Nat.zero_le _
  | sign sign => exact (sign.not_quoted same.symm).elim
  | literal filled plain => exact (quoted_not_literal quotes filled plain same).elim
  | quoted _ unescapes' =>
    rw [(unescapes.unique unescapes' (by simpa using same)).1]
  | verbatim due => exact due.elim

/-- A literal that is not followed by a character of literals is the longest token. -/
lemma literal_longest (filled : taken ≠ []) (plain : ∀ c ∈ taken, options.isLiteral c)
    (ends : ∀ c ∈ rest.head?, options.isLiteral c = false) :
    LongestToken options .literal taken taken rest := by
  refine ⟨.literal filled plain, fun {kind' lexeme' other left} same spelled => ?_⟩
  cases spelled with
  | ending => exact Nat.zero_le _
  | sign sign => exact (sign.not_literal filled plain same.symm).elim
  | literal _ plain' =>
    have whole := congrArg (List.takeWhile options.isLiteral) same
    have stops : rest.takeWhile options.isLiteral = [] := by
      cases rest with
      | nil => rfl
      | cons d rest => simp [ends d rfl]
    rw [List.takeWhile_append_of_pos plain', List.takeWhile_append_of_pos plain, stops,
      List.append_nil] at whole
    rw [← whole, List.length_append]
    exact Nat.le_add_right _ _
  | quoted quotes => exact (quoted_not_literal quotes filled plain same.symm).elim
  | verbatim due => exact due.elim

/-- No sign is of two kinds. -/
lemma Sign.unique {kind' : TokenKind} (sign : Sign kind taken) (sign' : Sign kind' taken) :
    kind' = kind := by
  cases sign
  all_goals
    cases sign'
    rfl

/-- What a token is follows from how it is written. -/
lemma Spelled.determined {kind' : TokenKind} {lexeme' : List Char}
    (spelled : Spelled options False rest kind lexeme taken)
    (spelled' : Spelled options False left kind' lexeme' other)
    (same : other ++ left = taken ++ rest) (alike : other = taken) :
    kind' = kind ∧ lexeme' = lexeme := by
  cases spelled with
  | ending =>
    cases spelled' with
    | ending => exact ⟨rfl, rfl⟩
    | sign sign => exact absurd alike sign.ne_nil
    | literal filled => exact absurd alike filled
    | quoted => cases alike
    | verbatim due => exact due.elim
  | sign sign =>
    cases spelled' with
    | ending => exact absurd alike.symm sign.ne_nil
    | sign sign' => exact ⟨sign.unique (alike ▸ sign'), alike⟩
    | literal filled plain => exact (sign.not_literal filled plain same).elim
    | quoted => exact (sign.not_quoted same).elim
    | verbatim due => exact due.elim
  | literal filled plain =>
    cases spelled' with
    | ending => exact absurd alike.symm filled
    | sign sign => exact (sign.not_literal filled plain same.symm).elim
    | literal => exact ⟨rfl, alike⟩
    | quoted quotes => exact (quoted_not_literal quotes filled plain same.symm).elim
    | verbatim due => exact due.elim
  | quoted quotes unescapes =>
    cases spelled' with
    | ending => cases alike
    | sign sign => exact (sign.not_quoted same.symm).elim
    | literal filled plain => exact (quoted_not_literal quotes filled plain same).elim
    | quoted _ unescapes' => exact ⟨rfl, (unescapes.unique unescapes' (by simpa using same)).2⟩
    | verbatim due => exact due.elim
  | verbatim due => exact due.elim

/-- There is one longest token. -/
lemma LongestToken.unique {kind' : TokenKind} {lexeme' : List Char}
    (ahead : LongestToken options kind lexeme taken rest)
    (ahead' : LongestToken options kind' lexeme' other left)
    (same : other ++ left = taken ++ rest) :
    kind' = kind ∧ lexeme' = lexeme ∧ other = taken ∧ left = rest := by
  have length : other.length = taken.length :=
    (ahead.longest same ahead'.spelled).antisymm (ahead'.longest same.symm ahead.spelled)
  obtain ⟨alike, behind⟩ := List.append_inj same length
  obtain ⟨kinds, lexemes⟩ := ahead.spelled.determined ahead'.spelled same alike
  exact ⟨kinds, lexemes, alike, behind⟩

/-- A quoted literal is open if no quote ends it. -/
lemma openQuote_iff : readQuoted body = none ↔
    ∀ inner value rest, Unescapes inner value → body ≠ inner ++ '"' :: rest := by
  constructor
  · rintro unclosed inner value rest unescapes rfl
    cases unclosed.symm.trans (unescapes.read rest)
  · intro unclosed
    match read : readQuoted body with
    | none => rfl
    | some (value, taken, rest) =>
      obtain ⟨rfl, inner, rfl, unescapes⟩ := readQuoted_unescapes read
      exact absurd (List.append_cons inner '"' rest).symm (unclosed inner value rest unescapes)

/-- Nothing but an end marker is written at the end. -/
lemma Spelled.of_nil (spelled : Spelled options False rest kind lexeme taken)
    (nothing : taken ++ rest = []) : kind = .endMarker := by
  by_contra inner
  exact spelled.ne_nil inner (List.append_eq_nil_iff.1 nothing).1

/-- No token is written where a quoted literal is open. -/
lemma OpenQuote.no_token (unclosed : OpenQuote options text)
    (spelled : Spelled options False rest kind lexeme taken) : taken ++ rest ≠ text := by
  obtain ⟨quotes, body, rfl, unclosed⟩ := unclosed
  intro same
  cases spelled with
  | ending done =>
    rw [done] at same
    cases same
  | sign sign => exact sign.not_quoted same.symm
  | literal filled plain => exact quoted_not_literal quotes filled plain same
  | quoted _ unescapes => exact unclosed _ _ rest unescapes (by simpa using same.symm)
  | verbatim due => exact due

end Tokens

namespace Lexer

variable {lx : Lexer} {spaced : Bool}

/-- What is read where no gap is, by what the text starts with. -/
inductive Outcome (options : Options) (lx : Lexer) (spaced : Bool) :
    Except LexError Token × Lexer → Prop
  | ends :
    lx.rest = [] →
    Outcome options lx spaced (lx.atEnd spaced)
  | opens (bracket : Bracket) {c rest} :
    lx.rest = c :: rest →
    LongestToken options bracket.opener [c] [c] rest →
    Outcome options lx spaced
      (.ok ((lx.openBracket bracket).emit bracket.opener [c] [c] rest spaced).1,
        ((lx.openBracket bracket).emit bracket.opener [c] [c] rest spaced).2)
  | closes (bracket : Bracket) {c rest} :
    lx.rest = c :: rest →
    LongestToken options bracket.closer [c] [c] rest →
    Outcome options lx spaced (lx.closing bracket c rest spaced)
  | flat {kind lexeme taken rest} :
    lx.rest = taken ++ rest →
    LongestToken options kind lexeme taken rest →
    kind ≠ .endMarker →
    kind.nest = id →
    Outcome options lx spaced (.ok (lx.emit kind lexeme taken rest spaced).1,
      (lx.emit kind lexeme taken rest spaced).2)
  | unterminated :
    OpenQuote options lx.rest →
    Outcome options lx spaced (.error ⟨.unterminated, lx.location⟩, lx)
  | unexpected {c rest} :
    lx.rest = c :: rest →
    c ≠ '\n' →
    Text.isBlank c ∨ options.comments ∧ c = '#' →
    Outcome options lx spaced (.error ⟨.unexpected c, lx.location⟩, lx)

/-- A character that starts no sign and no quoted literal starts a plain literal, unless it is a
blank or starts a comment. -/
lemma blank_of_not_isLiteral {c : Char} (other : c ∉ signs)
    (noQuote : (options.quotes && c == '"') = false) (plain : options.isLiteral c = false) :
    Text.isBlank c ∨ options.comments ∧ c = '#' := by
  rw [Options.isLiteral, noQuote, List.contains_eq_mem, decide_eq_false other] at plain
  simp only [Bool.not_false, Bool.and_true, Bool.and_eq_false_iff, Bool.not_eq_false',
    Bool.and_eq_true, beq_iff_eq] at plain
  exact plain

/-- A reading in front of no gap. -/
lemma symbol_outcome : Outcome options lx spaced (lx.symbol options spaced) := by
  have signed {kind : TokenKind} {text rest : List Char} (here : lx.rest = text ++ rest)
      (sign : Sign kind text) (whole : text = ['$'] → rest.head? ≠ some '^')
      (nests : kind.nest = id) : Outcome options lx spaced
        (.ok (lx.emit kind text text rest spaced).1, (lx.emit kind text text rest spaced).2) :=
    .flat here (sign.longest whole) sign.inner nests
  rw [symbol]
  split
  case h_1 here => exact .ends here
  case h_2 here => exact signed here .feed (by simp) rfl
  case h_3 here => exact signed here .vector (by simp) rfl
  case h_4 rest other here =>
    refine signed here .dollar (fun _ caret => ?_) rfl
    obtain ⟨rest, rfl⟩ := List.head?_eq_some_iff.1 caret
    exact other rest rfl
  case h_5 here => exact signed here .caret (by simp) rfl
  case h_6 here => exact signed here .bang (by simp) rfl
  case h_7 here => exact signed here .semicolon (by simp) rfl
  case h_8 here => exact .opens .paren here (Sign.openParen.longest (by simp))
  case h_9 here => exact .closes .paren here (Sign.closeParen.longest (by simp))
  case h_10 here => exact .opens .brace here (Sign.openBrace.longest (by simp))
  case h_11 here => exact .closes .brace here (Sign.closeBrace.longest (by simp))
  case h_12 c rest noFeed _ dollar caret bang semicolon opener closer brace braceEnd here =>
    split
    case isTrue quote =>
      obtain ⟨quotes, rfl⟩ : options.quotes = true ∧ c = '"' := by simpa using quote
      split
      case h_1 unclosed => exact .unterminated ⟨quotes, rest, here, openQuote_iff.1 unclosed⟩
      case h_2 value taken left quoted =>
        obtain ⟨rfl, body, rfl, unescapes⟩ := readQuoted_unescapes quoted
        exact .flat here (quoted_longest quotes unescapes) (by decide) rfl
    case isFalse noQuote =>
      split
      case h_1 left nothing =>
        -- what starts neither a sign nor a literal is a blank or starts a comment
        have plain : options.isLiteral c = false := by
          by_contra literal
          rw [List.span_eq_takeWhile_dropWhile, List.takeWhile_cons_of_pos (by simpa using literal)]
            at nothing
          cases nothing
        have unsigned : c ∉ signs := by
          simpa [signs] using ⟨dollar, caret, bang, opener, closer, brace, braceEnd, semicolon⟩
        have noQuote : (options.quotes && c == '"') = false := by simpa using noQuote
        exact .unexpected here noFeed (blank_of_not_isLiteral unsigned noQuote plain)
      case h_2 taken left filled literal =>
        rw [List.span_eq_takeWhile_dropWhile, Prod.mk.injEq] at literal
        obtain ⟨rfl, rfl⟩ := literal
        refine .flat ?_ (literal_longest filled ?_ (head_dropWhile _ _)) (by decide) rfl
        · rw [List.takeWhile_append_dropWhile, here]
        · exact fun c inside => List.mem_takeWhile_imp inside

end Lexer

end Scriptlet
