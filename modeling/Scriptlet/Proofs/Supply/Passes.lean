import Scriptlet.Proofs.Checked.Scanning
import Scriptlet.Proofs.Lexer.Lines

/-!
# One reading, pass after pass

Passes are made as long as they come to no token, and nothing bounds their number. That the loop ends
from wherever a scanner stands is what was shown of so many passes; it ends in one way, in the same
text, and never further back.
-/

namespace Scriptlet

namespace Scanner

/-- Passes until a token is found. -/
inductive Loop (options : Options) : Scanner → Bool → Except LexError Token → Scanner → Prop
  | found {s spaced result last} :
    s.pass? options spaced = some (.found result, last) →
    Loop options s spaced result last
  | again {s spaced mid spaced' result last} :
    s.pass? options spaced = some (.again spaced', mid) →
    Loop options mid spaced' result last →
    Loop options s spaced result last

/-- One reading: passes until a token is found, which is then followed for triggers. -/
inductive Reading (options : Options) (s : Scanner) : Except LexError Token → Scanner → Prop
  | token {token mid last} :
    s.Loop options (s.position == 0) (.ok token) mid →
    mid.trackTriggers? options token = some last →
    Reading options s (.ok token) last
  | error {error last} :
    s.Loop options (s.position == 0) (.error error) last →
    Reading options s (.error error) last

variable {options : Options} {s mid last last' : Scanner} {spaced : Bool} {pass : Pass}
  {token : Token} {result result' : Except LexError Token} {lx : Lexer}

/-- Passes from a scanner lead to one result. -/
lemma Loop.unique (first : s.Loop options spaced result last)
    (second : s.Loop options spaced result' last') : result = result' ∧ last = last' := by
  induction first with
  | found passed =>
    cases second with
    | found passed' =>
      cases passed.symm.trans passed'
      exact ⟨rfl, rfl⟩
    | again passed' => cases passed.symm.trans passed'
  | again passed _ ih =>
    cases second with
    | found passed' => cases passed.symm.trans passed'
    | again passed' later =>
      cases passed.symm.trans passed'
      exact ih later

/-- So does a reading. -/
lemma Reading.unique (first : s.Reading options result last)
    (second : s.Reading options result' last') : result = result' ∧ last = last' := by
  cases first with
  | token loop tracked =>
    cases second with
    | token loop' tracked' =>
      obtain ⟨same, rfl⟩ := loop.unique loop'
      cases same
      exact ⟨rfl, Option.some.inj (tracked.symm.trans tracked')⟩
    | error loop' => cases (loop.unique loop').1
  | error loop =>
    cases second with
    | token loop' => cases (loop.unique loop').1
    | error loop' => exact loop.unique loop'

/-- As many passes as were counted are passes. -/
lemma loop_of_passes? {count : Nat} (passed : s.passes? options count spaced = some (result, last)) :
    s.Loop options spaced result last := by
  induction count generalizing s spaced with
  | zero => cases passed
  | succ count ih =>
    rw [passes?] at passed
    obtain ⟨⟨_ | _, mid⟩, pass, later⟩ := Option.bind_eq_some_iff.1 passed
    · cases later
      exact .found pass
    · exact .again pass (ih later)

/-- The reading of the next token is one. -/
lemma reading_of_next? (read : s.next? options = some (result, last)) :
    s.Reading options result last := by
  rw [next?] at read
  obtain ⟨⟨error | token, mid⟩, passed, later⟩ := Option.bind_eq_some_iff.1 read
  · cases later
    exact .error (loop_of_passes? passed)
  · obtain ⟨last, tracked, same⟩ := Option.bind_eq_some_iff.1 later
    cases same
    exact .token (loop_of_passes? passed) tracked

/-- From where the lexer stands, there is one reading, and it is that of the lexer. -/
lemma Stands.reading (options : Options) (stands : s.Stands lx) :
    ∃ last, s.Reading options (lx.next options).1 last ∧ last.Stands (lx.next options).2 := by
  obtain ⟨last, read, arrived⟩ := stands.next options
  exact ⟨last, reading_of_next? read, arrived⟩

section Source

/-- The scanner stays in its text. -/
lemma advance?_source {bytes : Nat} (moved : s.advance? bytes = some last) :
    last.source = s.source := by
  obtain ⟨taken, -, same⟩ := Option.bind_eq_some_iff.1 moved
  cases same
  rfl

/-- To skip keeps the text. -/
lemma skip?_source {bytes : Nat} (skipped : s.skip? bytes = some (pass, last)) :
    last.source = s.source := by
  obtain ⟨mid, moved, same⟩ := Option.map_eq_some_iff.1 skipped
  cases same
  exact advance?_source moved

/-- So does to push a token. -/
lemma push?_source {kind : TokenKind} {bytes : Nat} {lexeme : List Char}
    (pushed : s.push? kind bytes lexeme spaced = some (pass, last)) : last.source = s.source := by
  obtain ⟨mid, moved, same⟩ := Option.bind_eq_some_iff.1 pushed
  cases same
  exact advance?_source moved

/-- So does to follow a bracket. -/
lemma trackBracket_source (s : Scanner) (kind : TokenKind) :
    (s.trackBracket kind).2.source = s.source := by
  cases kind <;> simp only [trackBracket, openBracket, closeBracket] <;> split <;> rfl

/-- So does to read a sign. -/
lemma sign?_source {rest : List Char} (signed : s.sign? options rest spaced = some (pass, last)) :
    last.source = s.source := by
  rw [sign?] at signed
  split at signed
  case h_1 kind _ =>
    have kept := s.trackBracket_source kind
    split at signed
    case h_1 tracked =>
      cases signed
      rwa [tracked] at kept
    case h_2 tracked =>
      rw [tracked] at kept
      exact (push?_source signed).trans kept
  case h_2 =>
    dsimp only at signed
    split at signed
    case isTrue =>
      cases signed
      rfl
    case isFalse => exact push?_source signed

/-- So does to read the end. -/
lemma atEnd?_source (ended : s.atEnd? spaced = some (pass, last)) : last.source = s.source := by
  rw [atEnd?] at ended
  split at ended
  · cases ended
    rfl
  · exact push?_source ended

/-- So does to read a quoted literal. -/
lemma quoted?_source (quoted : s.quoted? spaced = some (pass, last)) : last.source = s.source := by
  rw [quoted?] at quoted
  obtain ⟨rest, -, quoted⟩ := Option.bind_eq_some_iff.1 quoted
  obtain ⟨inner, -, quoted⟩ := Option.bind_eq_some_iff.1 quoted
  split at quoted
  · cases quoted
    rfl
  · exact push?_source quoted

/-- So does to take verbatim text. -/
lemma verbatimText?_source (taken : s.verbatimText? options spaced = some (pass, last)) :
    last.source = s.source := by
  rw [verbatimText?] at taken
  obtain ⟨rest, -, taken⟩ := Option.bind_eq_some_iff.1 taken
  obtain ⟨text, -, taken⟩ := Option.bind_eq_some_iff.1 taken
  dsimp only at taken
  split at taken
  · cases taken
    rfl
  · exact push?_source taken

/-- So does every pass. -/
lemma pass?_source (passed : s.pass? options spaced = some (pass, last)) :
    last.source = s.source := by
  rw [pass?] at passed
  obtain ⟨rest, -, passed⟩ := Option.bind_eq_some_iff.1 passed
  dsimp only at passed
  split_ifs at passed
  · exact skip?_source passed
  · exact verbatimText?_source passed
  · exact atEnd?_source passed
  · exact skip?_source passed
  · exact push?_source passed
  · exact skip?_source passed
  · exact quoted?_source passed
  · exact sign?_source passed

/-- So does to follow the triggers. -/
lemma trackTriggers?_source (tracked : s.trackTriggers? options token = some last) :
    last.source = s.source := by
  rw [trackTriggers?] at tracked
  split at tracked
  case h_1 => split at tracked <;> cases tracked <;> rfl
  case h_2 => split_ifs at tracked <;> cases tracked <;> rfl
  case h_3 => cases tracked; rfl

/-- So do passes until a token is found. -/
lemma Loop.source (loop : s.Loop options spaced result last) : last.source = s.source := by
  induction loop with
  | found passed => exact pass?_source passed
  | again passed _ ih => exact ih.trans (pass?_source passed)

/-- So does a reading. -/
lemma Reading.source (read : s.Reading options result last) : last.source = s.source := by
  cases read with
  | token loop tracked => exact (trackTriggers?_source tracked).trans loop.source
  | error loop => exact loop.source

end Source

end Scanner

namespace Lexer

variable {options : Options} {lx last : Lexer} {spaced : Bool} {error : LexError}

/-- The second lexer stands where the first does. It may have other brackets. -/
def SamePlace (lx last : Lexer) : Prop :=
  last.rest = lx.rest ∧ last.location = lx.location

/-- An error takes nothing of the text that it is met in. -/
lemma symbol_samePlace (read : lx.symbol options spaced = (.error error, last)) :
    lx.SamePlace last := by
  rw [symbol] at read
  split at read
  case h_1 =>
    rw [atEnd] at read
    split at read
    · cases read
      exact ⟨rfl, rfl⟩
    · cases read
  case h_9 | h_11 => exact (closing_error read).1
  case h_12 =>
    split at read
    all_goals
      split at read
      · cases read
        exact ⟨rfl, rfl⟩
      · cases read
  all_goals cases read

/-- To read plainly passes over blanks at most. -/
lemma plain_moves (lx : Lexer) :
    ∃ blanks, lx.rest = blanks ++ lx.plain.rest ∧
      lx.plain.location = lx.location.after blanks := by
  rw [plain]
  split
  · exact ⟨_, List.takeWhile_append_dropWhile.symm, rfl⟩
  · exact ⟨[], rfl, rfl⟩

/-- One reading moves on by the text that it skips and takes. -/
lemma next_moves (options : Options) (lx : Lexer) :
    ∃ text, lx.rest = text ++ (lx.next options).2.rest ∧
      (lx.next options).2.location = lx.location.after text := by
  match read : lx.next options with
  | (.ok token, last) =>
    obtain ⟨mid, scanned, rfl⟩ := next_ok read
    obtain ⟨gap, taken, more⟩ := scan_taken scanned
    refine ⟨gap ++ taken, ?_, ?_⟩
    · rw [trackTriggers_rest, more.rest, List.append_assoc]
    · rw [trackTriggers_location, more.location]
  | (.error error, last) =>
    have scanned := next_error.1 read
    rw [(Plain.of_error scanned).scan, ordinary_eq] at scanned
    obtain ⟨rest, location⟩ := symbol_samePlace scanned
    obtain ⟨blanks, whole, moved⟩ := lx.plain_moves
    refine ⟨blanks ++ (lx.plain.gapAhead options).1, ?_, ?_⟩
    · rw [whole, ← gapAhead_append options lx.plain, List.append_assoc]
      exact congrArg _ (congrArg _ rest.symm)
    · rw [Location.after_append, ← moved]
      exact location

end Lexer

end Scriptlet
