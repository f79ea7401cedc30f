import Scriptlet.Proofs.Lexer.Displaced
import Scriptlet.Proofs.Lexer.Mending

/-!
# A line feed behind a text

Behind a text that can be split into tokens, a line feed that separates statements is a separator,
and brings the lexer into the state that it starts in: a comment ends there, and no trigger waits any
more.
-/

namespace Scriptlet

/-- An end marker takes no text. -/
lemma Spelled.nothing {options : Options} {due : Prop} {rest lexeme taken : List Char}
    {kind : TokenKind} (spelled : Spelled options due rest kind lexeme taken)
    (marker : kind = .endMarker) : taken = [] := by
  cases spelled with
  | ending => rfl
  | sign sign => exact absurd marker sign.inner
  | literal | quoted | verbatim => cases marker

namespace Lexer

variable {options : Options} {lx last : Lexer} {spaced : Bool} {token : Token}

/-- There is an end marker where nothing is left and no bracket is open. -/
lemma symbol_at_end (read : lx.symbol options spaced = (.ok token, last))
    (kind : token.kind = .endMarker) : lx.rest = [] ∧ lx.brackets = [] := by
  obtain ⟨taken, more⟩ := symbol_taken True read
  have done : lx.rest = [] := by
    have left : lx.rest = taken ++ last.rest := more.rest
    rw [left, more.spelled.ends kind, more.spelled.nothing kind]
    rfl
  refine ⟨done, ?_⟩
  rw [symbol_end done, atEnd] at read
  split at read
  · cases read
  · assumption

/-- The end is read plainly. -/
lemma Plain.of_end (read : lx.scan options = (.ok token, last)) (kind : token.kind = .endMarker) :
    lx.Plain options := by
  intro now
  rw [scan_now now] at read
  split at read
  case isTrue blank => exact List.isEmpty_iff.1 blank
  case isFalse =>
    cases read
    cases kind

/-- Behind a separator, a command may start. -/
lemma trackTriggers_separator (kind : token.kind = .separator) :
    (lx.trackTriggers options token).atStatement = true := by
  rw [trackTriggers, kind]
  split <;> simp

/-- Where the end marker stands, a line feed is read as a separator, and behind it a text as at the
start of a script. -/
lemma next_feed (newlines : options.newlineSeparates = true) (toLine : options.verbatimToEnd = false)
    (read : lx.next options = (.ok token, last)) (kind : token.kind = .endMarker)
    (source : String) :
    ∃ separator fresh, (lx.extend ('\n' :: source.toList)).next options = (.ok separator, fresh) ∧
      separator.kind = .separator ∧ Displaced (ofText source) fresh := by
  obtain ⟨mid, scanned, rfl⟩ := next_ok read
  have plain := Plain.of_end scanned kind
  rw [plain.scan, ordinary_eq] at scanned
  obtain ⟨done, closed⟩ := symbol_at_end scanned kind
  have done : (lx.plain.gapAhead options).2 = [] := done
  have closed : lx.plain.brackets = [] := closed
  have ends : EndsLine ('\n' :: source.toList) := by simp [EndsLine]
  have longer := plain.extend toLine (.inr ends)
  have outside : (!options.newlineSeparates || lx.plain.inParens) = false := by
    rw [newlines, inParens, closed]
    rfl
  -- the gap at the end of the text ends in front of the line feed
  obtain ⟨gap, ahead⟩ : ∃ gap, (lx.plain.extend ('\n' :: source.toList)).gapAhead options =
      (gap, '\n' :: source.toList) := by
    have fed := readGap_feed done source.toList
    rw [outside, if_neg (by simp)] at fed
    refine ⟨_, Prod.ext rfl ?_⟩
    show (readGap _ (!options.newlineSeparates || lx.plain.inParens) _ _).2 = _
    rwa [outside]
  have separates (start : Lexer) (here : start.rest = '\n' :: source.toList) (spaced : Bool) :
      start.symbol options spaced = _ := symbol_separator here (.inl rfl)
  rw [ordinary_eq, ahead, separates _ rfl] at longer
  have off : ∀ token : Token, token.kind = .separator →
      ∀ lx : Lexer, (lx.trackTriggers options token).verbatim = .off :=
    fun token kind lx => trackTriggers_off (by simp [kind])
  refine ⟨_, _, by rw [Lexer.next, longer], rfl, ?_, ?_, ?_, ?_⟩
  · rw [trackTriggers_rest]
    rfl
  · rw [trackTriggers_brackets]
    exact (congrArg (List.map Prod.fst) closed).symm
  · exact (off _ rfl _).symm
  · exact (trackTriggers_separator rfl).symm

end Lexer

end Scriptlet
