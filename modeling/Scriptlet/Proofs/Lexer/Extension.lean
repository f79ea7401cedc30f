import Scriptlet.Proofs.Lexer.Readings

/-!
# Reading a text that goes on

More text does not change what was read before the end of the text was in sight. A token is final if
something is left behind it, or if the text goes on with a line feed; a closing bracket that fits
nothing is final in any case.
-/

namespace Scriptlet

/-- What ends in a text ends there in a longer one, too. -/
lemma span_cut {α : Type} {p : α → Bool} {text more : List α}
    (cut : text.dropWhile p ≠ [] ∨ ∀ c ∈ more.head?, p c = false) :
    (text ++ more).takeWhile p = text.takeWhile p ∧
      (text ++ more).dropWhile p = text.dropWhile p ++ more := by
  induction text with
  | nil =>
    cases more with
    | nil => exact ⟨rfl, rfl⟩
    | cons c more =>
      have stops : p c = false := by simpa using cut
      simp [stops]
  | cons c text ih =>
    by_cases goes : p c
    · simp only [List.dropWhile_cons, goes, if_true] at cut
      simpa [goes] using ih cut
    · simp [goes]

variable {options : Options} {text gap rest more : List Char}

/-- A gap that has ended stays the same when more text is there. -/
lemma readGap_extend {comments newlines inComment : Bool}
    (left : (readGap comments newlines inComment text).2 ≠ []) :
    readGap comments newlines inComment (text ++ more) =
      ((readGap comments newlines inComment text).1,
        (readGap comments newlines inComment text).2 ++ more) := by
  fun_induction readGap comments newlines inComment text
  all_goals simp_all [readGap]

/-- A gap that reaches to the end of the text reaches to a line feed behind it. -/
lemma readGap_feed {comments newlines inComment : Bool}
    (done : (readGap comments newlines inComment text).2 = []) (more : List Char) :
    (readGap comments newlines inComment (text ++ '\n' :: more)).2 =
      if newlines then (readGap comments newlines false more).2 else '\n' :: more := by
  fun_induction readGap comments newlines inComment text
  case case1 =>
    rw [List.nil_append, readGap, if_pos rfl]
    split <;> rfl
  all_goals simp_all [readGap]

/-- A quoted literal that is closed stays the same when more text is there. -/
lemma readQuoted_extend {value taken : List Char}
    (read : readQuoted text = some (value, taken, rest)) :
    readQuoted (text ++ more) = some (value, taken, rest ++ more) := by
  obtain ⟨rfl, body, rfl, unescapes⟩ := readQuoted_unescapes read
  simpa using unescapes.read (rest ++ more)

/-- The token is in front of the end of the text, or the fault is one that no text behind it mends.
-/
def Final : Except LexError Token → Prop
  | .ok token => token.kind ≠ .endMarker
  | .error error => error.fault.isIncomplete = false

namespace Lexer

/-- The lexer in front of a longer text. -/
def extend (lx : Lexer) (more : List Char) : Lexer :=
  { lx with rest := lx.rest ++ more }

variable {lx last : Lexer} {spaced : Bool} {result : Except LexError Token} {token : Token}
  {error : LexError}

/-- A closing bracket is the same when more text is there. -/
lemma closing_extend {bracket : Bracket} {c : Char} :
    (lx.extend more).closing bracket c (rest ++ more) spaced =
      ((lx.closing bracket c rest spaced).1, (lx.closing bracket c rest spaced).2.extend more) := by
  match inside : lx.brackets with
  | [] => simp [closing, closeBracket, extend, inside]
  | (opened, openedAt) :: outer =>
    by_cases same : opened = bracket
    · simp [closing, closeBracket, extend, emit, move, inside, same]
    · simp [closing, closeBracket, extend, inside, same]

/-- The characters that start a token whatever the options are. -/
def starters : List Char :=
  ['\n', '$', '^', '!', ';', '(', ')', '\x7b', '\x7d']

/-- Other characters start a literal. -/
lemma symbol_literal {c : Char} (here : lx.rest = c :: rest) (other : c ∉ starters) :
    lx.symbol options spaced =
      if options.quotes && c = '"' then
        match readQuoted rest with
        | none => (.error ⟨.unterminated, lx.location⟩, lx)
        | some (value, taken, rest) =>
          (.ok (lx.emit .quoted value (c :: taken) rest spaced).1,
            (lx.emit .quoted value (c :: taken) rest spaced).2)
      else
        match (c :: rest).takeWhile options.isLiteral with
        | [] => (.error ⟨.unexpected c, lx.location⟩, lx)
        | d :: taken =>
          (.ok (lx.emit .literal (d :: taken) (d :: taken)
              ((c :: rest).dropWhile options.isLiteral) spaced).1,
            (lx.emit .literal (d :: taken) (d :: taken)
              ((c :: rest).dropWhile options.isLiteral) spaced).2) := by
  rw [symbol, here]
  split
  case h_12 same =>
    cases same
    split
    · cases readQuoted rest <;> rfl
    · rw [List.span_eq_takeWhile_dropWhile]
      cases (c :: rest).takeWhile options.isLiteral <;> rfl
  case h_1 same => cases same
  all_goals
    rename_i same
    cases same
    exact absurd (by decide) other

/-- What ends a line goes on with no literal. -/
lemma EndsLine.isLiteral (ends : EndsLine more) :
    ∀ c ∈ more.head?, options.isLiteral c = false := by
  intro c first
  rw [ends c first]
  rfl

/-- A dollar sign is the same when more text is there, unless this could join it. -/
lemma dollar_extend (here : lx.rest = '$' :: rest)
    (read : lx.symbol options spaced = (result, last))
    (cut : ∀ token, result = .ok token → last.rest ≠ [] ∨ EndsLine more) :
    (lx.extend more).symbol options spaced = (result, last.extend more) := by
  obtain ⟨text, offset, location, brackets, verbatim, atStatement⟩ := lx
  subst here
  by_cases caret : ∃ tail, rest = '^' :: tail
  · obtain ⟨tail, rfl⟩ := caret
    cases read
    rfl
  · have other : ∀ tail, rest ≠ '^' :: tail := fun tail same => caret ⟨tail, same⟩
    rw [symbol_dollar rfl other] at read
    cases read
    have longer : ∀ tail, rest ++ more ≠ '^' :: tail := by
      intro tail same
      cases rest with
      | cons d rest =>
        cases same
        exact other _ rfl
      | nil =>
        obtain filled | ends := cut _ rfl
        · exact filled rfl
        · cases ends '^' (by rw [← List.nil_append more, same]; rfl)
    exact symbol_dollar rfl longer

/-- A token that starts with a sign is the same when more text is there, unless this could join it.
-/
lemma sign_extend {c : Char} (here : lx.rest = c :: rest) (sign : c ∈ starters)
    (read : lx.symbol options spaced = (result, last))
    (cut : ∀ token, result = .ok token → last.rest ≠ [] ∨ EndsLine more) :
    (lx.extend more).symbol options spaced = (result, last.extend more) := by
  have closes : ∀ (bracket : Bracket) {c : Char},
      lx.closing bracket c rest spaced = (result, last) →
      (lx.extend more).closing bracket c (rest ++ more) spaced = (result, last.extend more) := by
    intro bracket c read
    rw [closing_extend, read]
  by_cases dollar : c = '$'
  · exact dollar_extend (dollar ▸ here) read cut
  obtain ⟨text, offset, location, brackets, verbatim, atStatement⟩ := lx
  subst here
  obtain rfl | rfl | rfl | rfl | rfl | rfl | rfl | rfl | rfl := by
    simpa only [starters, List.mem_cons, List.not_mem_nil, or_false] using sign
  case inr.inl => exact absurd rfl dollar
  case inr.inr.inr.inr.inr.inr.inl => exact closes .paren read
  case inr.inr.inr.inr.inr.inr.inr.inr => exact closes .brace read
  all_goals
    cases read
    rfl

/-- What is final stays as it is in front of a longer text. -/
lemma symbol_extend (left : lx.rest ≠ []) (read : lx.symbol options spaced = (result, last))
    (final : Final result) (cut : ∀ token, result = .ok token → last.rest ≠ [] ∨ EndsLine more) :
    (lx.extend more).symbol options spaced = (result, last.extend more) := by
  obtain ⟨c, rest, here⟩ := List.exists_cons_of_ne_nil left
  by_cases sign : c ∈ starters
  · exact sign_extend here sign read cut
  · have longer : (lx.extend more).rest = c :: (rest ++ more) := by simp [extend, here]
    rw [symbol_literal here sign] at read
    rw [symbol_literal longer sign]
    split at read
    case isTrue quote =>
      rw [if_pos quote]
      split at read
      case h_1 =>
        cases read
        cases final
      case h_2 quoted =>
        cases read
        rw [readQuoted_extend quoted]
        rfl
    case isFalse noQuote =>
      rw [if_neg noQuote]
      have taken : (c :: rest).dropWhile options.isLiteral ≠ [] ∨
          ∀ d ∈ more.head?, options.isLiteral d = false := by
        split at read
        case h_1 nothing =>
          have same := List.takeWhile_append_dropWhile (p := options.isLiteral) (l := c :: rest)
          rw [nothing, List.nil_append] at same
          rw [same]
          exact .inl (List.cons_ne_nil _ _)
        case h_2 =>
          cases read
          exact (cut _ rfl).imp_right EndsLine.isLiteral
      obtain ⟨same, behind⟩ := span_cut taken
      rw [← List.cons_append, same, behind]
      split at read
      case h_1 => cases read; rfl
      case h_2 => cases read; rfl

/-- The gap ahead is the same when more text is there, if a token follows it. -/
lemma gapAhead_extend (left : (lx.gapAhead options).2 ≠ []) :
    (lx.extend more).gapAhead options =
      ((lx.gapAhead options).1, (lx.gapAhead options).2 ++ more) :=
  readGap_extend left

/-- A token behind its gap is the same when more text is there, unless this could join it. -/
lemma ordinary_extend (left : (lx.gapAhead options).2 ≠ [])
    (read : lx.ordinary options spaced = (result, last)) (final : Final result)
    (cut : ∀ token, result = .ok token → last.rest ≠ [] ∨ EndsLine more) :
    (lx.extend more).ordinary options spaced = (result, last.extend more) := by
  rw [ordinary_eq] at read ⊢
  rw [gapAhead_extend left]
  exact symbol_extend left read final cut

/-- With no text ahead only the end can be read. -/
lemma symbol_end (here : lx.rest = []) : lx.symbol options spaced = lx.atEnd spaced := by
  rw [symbol, here]

/-- At the end of the text there is nothing that is final. -/
lemma atEnd_open (read : lx.atEnd spaced = (result, last)) : ¬Final result := by
  intro final
  match inside : lx.brackets with
  | [] =>
    rw [atEnd_eq inside] at read
    cases read
    exact final rfl
  | (bracket, openedAt) :: outer =>
    rw [atEnd, inside] at read
    cases read
    cases final

/-- Where a token has been read, there was text behind the gap. -/
lemma ordinary_left (read : lx.ordinary options spaced = (result, last)) (final : Final result) :
    (lx.gapAhead options).2 ≠ [] := by
  intro done
  rw [ordinary_eq, symbol_end done] at read
  exact atEnd_open read final

/-- Verbatim text to the end of its line does not go beyond it. -/
lemma isVerbatim_feed (toLine : options.verbatimToEnd = false) :
    options.isVerbatim '\n' = false := by
  rw [Options.isVerbatim, toLine]
  rfl

/-- Where verbatim text ends at the end of the line, blank verbatim text is empty. -/
lemma verbatimText_blank (toLine : options.verbatimToEnd = false)
    (blank : Text.dropBlanksEnd (lx.verbatimText options) = []) : lx.verbatimText options = [] := by
  match here : lx.verbatimText options with
  | [] => rfl
  | c :: text =>
    exfalso
    obtain ⟨blanks, same, allBlank⟩ := dropBlanksEnd_append (lx.verbatimText options)
    rw [blank, List.nil_append, here] at same
    have isBlank : Text.isBlank c := allBlank c (same ▸ List.mem_cons_self)
    have verbatim : options.isVerbatim c :=
      List.mem_takeWhile_imp (show c ∈ lx.verbatimText options from here ▸ List.mem_cons_self)
    have noFeed : c ≠ '\n' := by
      rintro rfl
      rw [isVerbatim_feed toLine] at verbatim
      cases verbatim
    have head : (lx.rest.dropWhile isInlineBlank).head? = some c := by
      have taken : lx.rest.dropWhile isInlineBlank = lx.verbatimText options ++ _ :=
        List.takeWhile_append_dropWhile.symm
      rw [taken, here]
      rfl
    have inline := List.head?_dropWhile_not isInlineBlank lx.rest
    rw [head] at inline
    simp [isInlineBlank, noFeed, isBlank] at inline

/-- Blanks that have ended are the same when more text is there. -/
lemma afterBlanks_extend (left : lx.afterBlanks.rest ≠ [] ∨ EndsLine more) :
    (lx.extend more).afterBlanks = lx.afterBlanks.extend more ∧
      (lx.extend more).blanksSpaced = lx.blanksSpaced := by
  have cut : lx.rest.dropWhile isInlineBlank ≠ [] ∨ ∀ c ∈ more.head?, isInlineBlank c = false := by
    refine left.imp_right fun ends c first => ?_
    rw [ends c first]
    rfl
  obtain ⟨taken, behind⟩ := span_cut cut
  constructor
  · rw [afterBlanks, afterBlanks, extend, taken, behind]
    rfl
  · rw [blanksSpaced, blanksSpaced, extend, taken]

/-- Verbatim text that has ended is the same when more text is there. -/
lemma verbatimText_extend (toLine : options.verbatimToEnd = false)
    (left : lx.afterBlanks.rest ≠ [] ∨ EndsLine more)
    (cut : lx.afterBlanks.rest.dropWhile options.isVerbatim ≠ [] ∨ EndsLine more) :
    (lx.extend more).verbatimText options = lx.verbatimText options ∧
      (lx.extend more).afterBlanks.rest.dropWhile options.isVerbatim =
        lx.afterBlanks.rest.dropWhile options.isVerbatim ++ more := by
  rw [verbatimText, (afterBlanks_extend left).1]
  refine span_cut (cut.imp_right fun ends c first => ?_)
  rw [ends c first]
  exact isVerbatim_feed toLine

/-- What is left behind the blanks is all that is left if no verbatim text is taken. -/
lemma verbatimText_left (nothing : lx.verbatimText options = []) :
    lx.afterBlanks.rest.dropWhile options.isVerbatim = lx.afterBlanks.rest := by
  have same := List.takeWhile_append_dropWhile (p := options.isVerbatim) (l := lx.afterBlanks.rest)
  have untaken : lx.afterBlanks.rest.takeWhile options.isVerbatim = [] := nothing
  rwa [untaken, List.nil_append] at same

/-- What is final stays as it is in front of a longer text. -/
lemma scan_extend (toLine : options.verbatimToEnd = false)
    (read : lx.scan options = (result, last)) (final : Final result)
    (cut : ∀ token, result = .ok token → last.rest ≠ [] ∨ EndsLine more) :
    (lx.extend more).scan options = (result, last.extend more) := by
  by_cases now : lx.verbatim = .now
  · rw [scan_now now] at read
    have later : (lx.extend more).verbatim = .now := now
    rw [scan_now later]
    split at read
    case isTrue blank =>
      have nothing := verbatimText_blank toLine (List.isEmpty_iff.1 blank)
      have gapped := ordinary_left read final
      have left : lx.afterBlanks.rest ≠ [] ∨ EndsLine more := by
        refine .inl fun done => ?_
        have whole := gapAhead_append options { lx.afterBlanks with verbatim := .off }
        rw [done, List.append_eq_nil_iff] at whole
        exact gapped whole.2
      have same := verbatimText_extend toLine left
        (left.imp_left (by rw [verbatimText_left nothing]; exact id))
      have behind := afterBlanks_extend left
      rw [same.1, if_pos blank, behind.1, behind.2]
      exact ordinary_extend gapped read final cut
    case isFalse filled =>
      cases read
      have left : lx.afterBlanks.rest ≠ [] ∨ EndsLine more := by
        refine .inl fun done => ?_
        rw [verbatimText, done] at filled
        exact filled rfl
      have same := verbatimText_extend toLine left (cut _ rfl)
      have behind := afterBlanks_extend left
      rw [same.1, same.2, if_neg filled, behind.1, behind.2]
      rfl
  · rw [scan_ordinary now] at read
    have later : (lx.extend more).verbatim ≠ .now := now
    rw [scan_ordinary later]
    exact ordinary_extend (ordinary_left read final) read final cut

/-- The triggers are not told of more text. -/
lemma extend_trackTriggers :
    (lx.extend more).trackTriggers options token =
      (lx.trackTriggers options token).extend more := by
  obtain ⟨text, offset, location, brackets, verbatim, atStatement⟩ := lx
  cases verbatim with
  | off =>
    simp only [trackTriggers, extend]
    split <;> rfl
  | awaiting count =>
    simp only [trackTriggers, extend]
    split <;> rfl
  | now => rfl

/-- What is final stays as it is in front of a longer text. -/
lemma next_extend (toLine : options.verbatimToEnd = false)
    (read : lx.next options = (result, last)) (final : Final result)
    (cut : ∀ token, result = .ok token → last.rest ≠ [] ∨ EndsLine more) :
    (lx.extend more).next options = (result, last.extend more) := by
  cases result with
  | ok token =>
    obtain ⟨mid, scanned, rfl⟩ := next_ok read
    have cut : ∀ other, Except.ok (ε := LexError) token = .ok other →
        mid.rest ≠ [] ∨ EndsLine more := by
      rw [trackTriggers_rest] at cut
      exact cut
    rw [next, scan_extend toLine scanned final cut, ← extend_trackTriggers]
  | error error =>
    rw [next_error] at read ⊢
    exact scan_extend toLine read final cut

/-- Reading makes no text longer. -/
lemma Reads.length_le {tokens : List Token} (reads : Reads options lx tokens last) :
    last.rest.length ≤ lx.rest.length := by
  induction reads with
  | nil => exact Nat.le_refl _
  | cons _ _ shorter _ ih => omega

/-- Tokens that were read are read in front of a longer text, too. -/
lemma Reads.extend {tokens : List Token} (toLine : options.verbatimToEnd = false)
    (reads : Reads options lx tokens last) (cut : last.rest ≠ [] ∨ EndsLine more) :
    Reads options (lx.extend more) tokens (last.extend more) := by
  induction reads with
  | nil => exact .nil
  | @cons here mid last token tokens read inner shorter behind ih =>
    have left : mid.rest ≠ [] ∨ EndsLine more := by
      refine cut.imp_left fun left done => left ?_
      have shrinks := behind.length_le
      rw [done] at shrinks
      exact List.length_eq_zero_iff.1 (Nat.le_zero.1 shrinks)
    refine .cons (next_extend toLine read inner fun _ _ => left) inner ?_ (ih cut)
    simpa [Lexer.extend] using shorter

end Lexer

end Scriptlet
