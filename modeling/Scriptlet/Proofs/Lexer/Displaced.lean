import Scriptlet.Proofs.Lexer.Tiling

/-!
# The same text in another place

How a text is split into tokens does not depend on where it stands: two lexers with the same text
ahead, the same brackets open and the same trigger waiting read the same tokens, but for their spans.
Only the first token of a script is spaced for no other reason than that it is the first.
-/

namespace Scriptlet.Lexer

/-- The same text is ahead and is going to be read in the same way. -/
structure Displaced (lx lx' : Lexer) : Prop where
  rest : lx.rest = lx'.rest
  nesting : lx.brackets.map Prod.fst = lx'.brackets.map Prod.fst
  verbatim : lx.verbatim = lx'.verbatim
  atStatement : lx.atStatement = lx'.atStatement

/-- The same reading in two places: both fail, or the tokens are the same but for their spans. That
they are spaced alike is due to `near`. -/
inductive SameReading (near : Prop) :
    Except LexError Token × Lexer → Except LexError Token × Lexer → Prop
  | read {token token' : Token} {last last' : Lexer} :
    token.kind = token'.kind →
    token.lexeme = token'.lexeme →
    (near → token.spaced = token'.spaced) →
    Displaced last last' →
    SameReading near (.ok token, last) (.ok token', last')
  | failed {error error' : LexError} {last last' : Lexer} :
    SameReading near (.error error, last) (.error error', last')

variable {lx lx' : Lexer} {options : Options} {spaced spaced' : Bool}

/-- Over the same characters both move alike, wherever they stand. -/
lemma Displaced.move (same : Displaced lx lx') (taken rest : List Char) :
    Displaced (lx.move taken rest) (lx'.move taken rest) :=
  ⟨rfl, same.nesting, same.verbatim, same.atStatement⟩

/-- Both note an opening bracket, each at its own place. -/
lemma Displaced.openBracket (same : Displaced lx lx') (bracket : Bracket) :
    Displaced (lx.openBracket bracket) (lx'.openBracket bracket) :=
  ⟨same.rest, congrArg (bracket :: ·) same.nesting, same.verbatim, same.atStatement⟩

/-- The same characters are the same token, but for its place. -/
lemma Displaced.emit (same : Displaced lx lx') (kind : TokenKind) (lexeme taken rest : List Char) :
    SameReading (spaced = spaced')
      (.ok (lx.emit kind lexeme taken rest spaced).1, (lx.emit kind lexeme taken rest spaced).2)
      (.ok (lx'.emit kind lexeme taken rest spaced').1,
        (lx'.emit kind lexeme taken rest spaced').2) :=
  .read rfl rfl id (same.move taken rest)

/-- Where no bracket is open for one, none is for the other. -/
lemma Displaced.brackets_nil (same : Displaced lx lx') (none : lx.brackets = []) :
    lx'.brackets = [] := by
  have nesting := same.nesting
  rw [none] at nesting
  exact List.map_eq_nil_iff.1 nesting.symm

/-- The same brackets are open for both. -/
lemma Displaced.brackets_cons (same : Displaced lx lx') {first : Bracket × Location}
    {outer : List (Bracket × Location)} (some : lx.brackets = first :: outer) :
    ∃ first' outer', lx'.brackets = first' :: outer' ∧ first'.1 = first.1 ∧
      outer'.map Prod.fst = outer.map Prod.fst := by
  have nesting := same.nesting
  rw [some] at nesting
  exact List.map_eq_cons_iff.1 nesting.symm

/-- At the end both read the end marker, or report the same bracket. -/
lemma Displaced.atEnd (same : Displaced lx lx') :
    SameReading (spaced = spaced') (lx.atEnd spaced) (lx'.atEnd spaced') := by
  rw [Lexer.atEnd, Lexer.atEnd, same.rest]
  cases here : lx.brackets with
  | nil =>
    rw [same.brackets_nil here]
    exact same.emit .endMarker [] [] lx'.rest
  | cons first outer =>
    obtain ⟨first', outer', there, -⟩ := same.brackets_cons here
    rw [there]
    exact .failed

/-- Both accept the same closing bracket. -/
lemma Displaced.closing (same : Displaced lx lx') (bracket : Bracket) (c : Char)
    (rest : List Char) :
    SameReading (spaced = spaced') (lx.closing bracket c rest spaced)
      (lx'.closing bracket c rest spaced') := by
  rw [Lexer.closing, Lexer.closing, closeBracket, closeBracket]
  cases here : lx.brackets with
  | nil =>
    rw [same.brackets_nil here]
    exact .failed
  | cons first outer =>
    obtain ⟨first', outer', there, opened, outside⟩ := same.brackets_cons here
    have closed : Displaced { lx with brackets := outer } { lx' with brackets := outer' } :=
      ⟨same.rest, outside.symm, same.verbatim, same.atStatement⟩
    rw [there]
    by_cases fits : first.1 = bracket
    · simp only [opened, fits, if_true]
      exact closed.emit bracket.closer [c] [c] rest
    · simp only [opened, fits, if_false]
      exact .failed

/-- The same token is ahead of both. -/
lemma Displaced.symbol (same : Displaced lx lx') :
    SameReading (spaced = spaced') (lx.symbol options spaced) (lx'.symbol options spaced') := by
  rw [Lexer.symbol, Lexer.symbol, ← same.rest]
  split
  · exact same.atEnd
  · exact same.emit ..
  · exact same.emit ..
  · exact same.emit ..
  · exact same.emit ..
  · exact same.emit ..
  · exact same.emit ..
  · exact (same.openBracket .paren).emit ..
  · exact same.closing ..
  · exact (same.openBracket .brace).emit ..
  · exact same.closing ..
  · split
    · cases readQuoted _ with
      | none => exact .failed
      | some read => exact same.emit ..
    · split
      · exact .failed
      · exact same.emit ..

/-- Readings that are the same with spacing are the same without. -/
lemma SameReading.weaken {near other : Prop} {reading reading' : Except LexError Token × Lexer}
    (same : SameReading near reading reading') (weaker : other → near) :
    SameReading other reading reading' := by
  cases same with
  | read kind lexeme spaced behind => exact .read kind lexeme (fun h => spaced (weaker h)) behind
  | failed => exact .failed

/-- The same gap is ahead of both. -/
lemma Displaced.gapAhead (same : Displaced lx lx') : lx.gapAhead options = lx'.gapAhead options := by
  rw [Lexer.gapAhead, Lexer.gapAhead, inParens_eq, inParens_eq, same.rest, same.nesting]

/-- Behind the same gap the same token is read. -/
lemma Displaced.ordinary (same : Displaced lx lx') :
    SameReading (spaced = spaced') (lx.ordinary options spaced)
      (lx'.ordinary options spaced') := by
  rw [ordinary_eq, ordinary_eq, same.gapAhead]
  exact (same.move _ _).symbol.weaken fun near => by rw [near]

/-- Behind the same blanks both stand alike. -/
lemma Displaced.afterBlanks (same : Displaced lx lx') :
    Displaced lx.afterBlanks lx'.afterBlanks := by
  rw [Lexer.afterBlanks, Lexer.afterBlanks, same.rest]
  exact same.move _ _

/-- Both scan the same token, but for its place. -/
lemma Displaced.scan (same : Displaced lx lx') :
    SameReading ((lx.offset == 0) = (lx'.offset == 0)) (lx.scan options) (lx'.scan options) := by
  have mode := same.verbatim
  by_cases now : lx.verbatim = .now
  · have behind := same.afterBlanks
    have spaced (near : (lx.offset == 0) = (lx'.offset == 0)) :
        lx.blanksSpaced = lx'.blanksSpaced := by
      rw [blanksSpaced, blanksSpaced, near, same.rest]
    have text : lx.verbatimText options = lx'.verbatimText options := by
      rw [verbatimText, verbatimText, behind.rest]
    rw [scan_now now, scan_now (mode ▸ now), text, behind.rest]
    split
    · have off : Displaced { lx.afterBlanks with verbatim := .off }
          { lx'.afterBlanks with verbatim := .off } :=
        ⟨behind.rest, behind.nesting, rfl, behind.atStatement⟩
      exact off.ordinary.weaken spaced
    · exact (behind.emit ..).weaken spaced
  · rw [scan_ordinary now, scan_ordinary (mode ▸ now)]
    exact same.ordinary

/-- Tokens of the same kind and lexeme are the same to the triggers. -/
lemma Displaced.trackTriggers (same : Displaced lx lx') {token token' : Token}
    (kind : token.kind = token'.kind) (lexeme : token.lexeme = token'.lexeme) :
    Displaced (lx.trackTriggers options token) (lx'.trackTriggers options token') := by
  obtain ⟨rest, offset, location, brackets, verbatim, atStatement⟩ := lx
  obtain ⟨rest', offset', location', brackets', verbatim', atStatement'⟩ := lx'
  obtain ⟨rfl, nesting, rfl, rfl⟩ := same
  simp only [Lexer.trackTriggers, ← kind, ← lexeme]
  cases verbatim with
  | off => cases token.kind <;> exact ⟨rfl, nesting, rfl, rfl⟩
  | awaiting count =>
    by_cases literal : token.kind = .literal
    · simp only [literal, if_true]
      exact ⟨rfl, nesting, rfl, rfl⟩
    · simp only [literal, if_false]
      exact ⟨rfl, nesting, rfl, rfl⟩
  | now => exact ⟨rfl, nesting, rfl, rfl⟩

/-- The next reading is the same in both places. -/
lemma Displaced.next (same : Displaced lx lx') :
    SameReading ((lx.offset == 0) = (lx'.offset == 0)) (lx.next options) (lx'.next options) := by
  have scanned : SameReading ((lx.offset == 0) = (lx'.offset == 0)) (lx.scan options)
      (lx'.scan options) := same.scan
  rw [Lexer.next, Lexer.next]
  generalize lx.scan options = reading, lx'.scan options = reading' at scanned ⊢
  cases scanned with
  | read kind lexeme spaced behind =>
    exact .read kind lexeme spaced (behind.trackTriggers kind lexeme)
  | failed => exact .failed

/-- A token that is read here is read there. -/
lemma Displaced.read (same : Displaced lx lx') {token : Token} {last : Lexer}
    (read : lx.next options = (.ok token, last)) :
    ∃ token' last', lx'.next options = (.ok token', last') ∧ token.kind = token'.kind ∧
      token.lexeme = token'.lexeme ∧
      ((lx.offset == 0) = (lx'.offset == 0) → token.spaced = token'.spaced) ∧
      Displaced last last' := by
  have both : SameReading ((lx.offset == 0) = (lx'.offset == 0)) (lx.next options)
      (lx'.next options) := same.next
  rw [read] at both
  generalize there : lx'.next options = reading at both
  cases both with
  | read kind lexeme spaced behind => exact ⟨_, _, rfl, kind, lexeme, spaced, behind⟩

/-- Behind a token, the next one is not the first. -/
lemma next_offset {token : Token} {last : Lexer} (read : lx.next options = (.ok token, last))
    (inner : token.kind ≠ .endMarker) : last.offset ≠ 0 := by
  obtain ⟨mid, scanned, rfl⟩ := next_ok read
  obtain ⟨gap, taken, more⟩ := scan_taken scanned
  have filled : 0 < taken.length := List.length_pos_iff.2 (more.spelled.ne_nil inner)
  rw [trackTriggers_offset, more.offset, List.length_append]
  omega

end Scriptlet.Lexer
