import Scriptlet.Proofs.Lexer.Readings
import Scriptlet.Proofs.Syntax.Acceptance

/-!
# Tokens tile the script

Where the texts of two tokens meet there is a gap, and nothing of the script is left out: its text
is the texts of its tokens with the gaps in front of them. Where a token is follows from what of the
script comes before it, and so does whether it is spaced; which brackets are open and whether
verbatim text is due follow from the tokens before it.
-/

namespace Scriptlet

namespace Location

/-- The location behind a text that starts a script: how many lines it has ended, and how long the
line is that it has not. -/
def behind (text : List Char) : Location :=
  ⟨text.count '\n', (text.rtakeWhile (· != '\n')).length⟩

/-- A text from the start ends behind it. -/
lemma after_origin (text : List Char) : origin.after text = behind text := by
  induction text using List.reverseRecOn with
  | nil => rfl
  | append_singleton text c ih =>
    rw [after_append, ih, after_cons, after_nil, next, behind, behind]
    split
    case isTrue feed =>
      subst feed
      simp
    case isFalse other => simp [other]

/-- The first location is the second one or comes before it. -/
def UpTo (l m : Location) : Prop :=
  l.line < m.line ∨ l.line = m.line ∧ l.column ≤ m.column

/-- A place is up to itself. -/
lemma UpTo.refl (l : Location) : l.UpTo l :=
  .inr ⟨rfl, Nat.le_refl _⟩

/-- Every place is behind the first. -/
lemma UpTo.origin (l : Location) : origin.UpTo l :=
  (Nat.eq_zero_or_pos l.line).elim (fun first => .inr ⟨first.symm, Nat.zero_le _⟩) .inl

/-- The order of places is handed on. -/
lemma UpTo.trans {l m n : Location} (first : l.UpTo m) (second : m.UpTo n) : l.UpTo n := by
  unfold UpTo at *
  omega

/-- A character leads on. -/
lemma upTo_next (l : Location) (c : Char) : l.UpTo (l.next c) := by
  rw [next]
  split
  · exact .inl (Nat.lt_succ_self _)
  · exact .inr ⟨rfl, Nat.le_succ _⟩

/-- A text leads on. -/
lemma upTo_after (l : Location) (text : List Char) : l.UpTo (l.after text) := by
  induction text generalizing l with
  | nil => exact .refl l
  | cons c text ih => exact (upTo_next l c).trans (ih _)

/-- A character leads to another place. -/
lemma not_next_upTo (l : Location) (c : Char) : ¬ (l.next c).UpTo l := by
  rw [next, UpTo]
  split
  · simp
  · simp

/-- A text that is not empty leads on. -/
lemma not_after_upTo {text : List Char} (filled : text ≠ []) (l : Location) :
    ¬ (l.after text).UpTo l := by
  obtain ⟨c, text, rfl⟩ := List.exists_cons_of_ne_nil filled
  exact fun back => not_next_upTo l c ((upTo_after (l.next c) text).trans back)

end Location

/-- The brackets that are open behind the tokens, innermost first. -/
def openBrackets (earlier : List Token) : List Bracket :=
  earlier.foldl (fun brackets token => token.kind.nest brackets) []

/-- A statement may start behind the tokens. -/
def StartsStatement (earlier : List Token) : Prop :=
  ∀ token ∈ earlier.getLast?, token.kind = .separator ∨ token.kind = .openBrace ∨
    token.kind = .closeBrace ∨ token.kind = .closeParen

/-- The tokens end with a trigger that starts a statement and with literals behind it, of which
`missing` are missing from its count. -/
def Triggered (options : Options) (earlier : List Token) (missing : Nat) : Prop :=
  ∃ before name literals, earlier = before ++ name :: literals ∧ StartsStatement before ∧
    name.kind = .literal ∧ (∀ token ∈ literals, token.kind = .literal) ∧
    options.triggers.get? name.lexeme = some (literals.length + missing)

/-- The tokens are written in the last text, behind the text `before` in which the tokens `earlier`
are written. -/
inductive Tiling (options : Options) :
    (before : List Char) → (earlier : List Token) → List Token → List Char → Prop
  | nil {before earlier} :
    Tiling options before earlier [] []
  | cons {before earlier gap taken rest token tokens} :
    Gap options ((openBrackets earlier).head? == some .paren) (taken ++ rest) gap →
    Spelled options (Triggered options earlier 0) rest token.kind token.lexeme.toList taken →
    token.span = ⟨.behind (before ++ gap), .behind (before ++ gap ++ taken)⟩ →
    (token.spaced ↔ gap ≠ [] ∨ before ++ gap = []) →
    Tiling options (before ++ gap ++ taken) (earlier ++ [token]) tokens rest →
    Tiling options before earlier (token :: tokens) (gap ++ (taken ++ rest))

variable {options : Options} {before : List Char} {earlier tokens : List Token} {token : Token}
  {lx mid last : Lexer}

/-- The open brackets follow the tokens one by one. -/
lemma openBrackets_append (earlier : List Token) (token : Token) :
    openBrackets (earlier ++ [token]) = token.kind.nest (openBrackets earlier) := by
  rw [openBrackets, List.foldl_append]
  rfl

/-- A statement may start behind a separator, a brace or a closing parenthesis. -/
lemma StartsStatement.behind
    (kind : token.kind = .separator ∨ token.kind = .openBrace ∨ token.kind = .closeBrace ∨
      token.kind = .closeParen) :
    StartsStatement (earlier ++ [token]) := by
  intro other here
  obtain rfl : token = other := by simpa using here
  exact kind

/-- A literal that names a trigger where a statement starts waits for its number of literals. -/
lemma Triggered.opens {count : Nat} (starts : StartsStatement earlier)
    (kind : token.kind = .literal) (names : options.triggers.get? token.lexeme = some count) :
    Triggered options (earlier ++ [token]) count :=
  ⟨earlier, token, [], rfl, starts, kind, nofun, by simpa using names⟩

/-- A literal behind a trigger is one of those that it waits for. -/
lemma Triggered.counts {missing : Nat} (triggered : Triggered options earlier (missing + 1))
    (kind : token.kind = .literal) : Triggered options (earlier ++ [token]) missing := by
  obtain ⟨before, name, literals, rfl, starts, names, counted, trigger⟩ := triggered
  refine ⟨before, name, literals ++ [token], by simp, starts, names, ?_, ?_⟩
  · intro other inside
    obtain inside | rfl := by simpa using inside
    · exact counted other inside
    · exact kind
  · rw [trigger, List.length_append]
    congr 1
    simp only [List.length_cons, List.length_nil]
    omega

namespace Lexer

/-- What the lexer keeps of the tokens it has read, for triggers. -/
structure Attends (options : Options) (earlier : List Token) (lx : Lexer) : Prop where
  starts : lx.atStatement → StartsStatement earlier
  busy : lx.verbatim ≠ .off → lx.atStatement = false
  counting {count : Nat} :
    lx.verbatim = .awaiting count → count ≠ 0 ∧ Triggered options earlier count
  due : lx.verbatim = .now → Triggered options earlier 0

/-- The lexer stands behind the text `before`, in which it has read the tokens `earlier`. -/
structure Follows (options : Options) (before : List Char) (earlier : List Token) (lx : Lexer) :
    Prop where
  offset : lx.offset = before.length
  location : lx.location = .behind before
  nesting : lx.brackets.map Prod.fst = openBrackets earlier
  attends : lx.Attends options earlier

/-- A lexer in the same mode attends to the same tokens. -/
lemma Attends.of_eq (attends : lx.Attends options earlier)
    (atStatement : mid.atStatement = lx.atStatement)
    (verbatim : mid.verbatim = lx.verbatim ∨ mid.verbatim = .off) :
    mid.Attends options earlier where
  starts := by rw [atStatement]; exact attends.starts
  busy := by
    intro on
    rw [atStatement]
    exact attends.busy (by grind)
  counting := by
    intro count waits
    exact attends.counting (by grind)
  due := by
    intro now
    exact attends.due (by grind)

/-- No trigger is open, and a statement may start here. -/
lemma Attends.off (verbatim : lx.verbatim = .off)
    (starts : lx.atStatement → StartsStatement earlier) : lx.Attends options earlier where
  starts := starts
  busy := fun on => absurd verbatim on
  counting := fun waits => absurd (verbatim.symm.trans waits) nofun
  due := fun now => absurd (verbatim.symm.trans now) nofun

/-- A trigger is open behind the tokens. -/
lemma Attends.on (statement : lx.atStatement = false) {count : Nat}
    (triggered : Triggered options earlier count)
    (verbatim : lx.verbatim = if count = 0 then .now else .awaiting count) :
    lx.Attends options earlier where
  starts := fun here => absurd here (by simp [statement])
  busy := fun _ => statement
  counting := by
    intro waiting waits
    rw [verbatim] at waits
    split at waits
    case isTrue => cases waits
    case isFalse missing =>
      cases waits
      exact ⟨missing, triggered⟩
  due := by
    intro now
    rw [verbatim] at now
    split at now
    case isTrue complete => exact complete ▸ triggered
    case isFalse => cases now

/-- Triggers are followed token by token. -/
lemma Attends.trackTriggers (attends : lx.Attends options earlier) (token : Token) :
    (lx.trackTriggers options token).Attends options (earlier ++ [token]) := by
  have started : token.kind = .separator → StartsStatement (earlier ++ [token]) :=
    fun kind => .behind (.inl kind)
  rw [Lexer.trackTriggers]
  split
  case h_1 off =>
    split
    case h_1 kind | h_2 kind | h_3 kind | h_4 kind =>
      exact .off off fun _ => .behind (by simp [kind])
    case h_5 =>
      dsimp only
      split
      case h_1 => exact .off rfl fun starts => by cases starts
      all_goals
        rename_i names
        split at names
        case isTrue opens =>
          obtain ⟨statement, kind⟩ : lx.atStatement = true ∧ token.kind = .literal := by
            simpa using opens
          exact .on rfl (.opens (attends.starts statement) kind names) (by grind)
        case isFalse => cases names
  case h_2 count waits =>
    obtain ⟨positive, triggered⟩ := attends.counting waits
    have statement := attends.busy (by simp [waits])
    split
    case isTrue kind =>
      obtain ⟨missing, rfl⟩ := Nat.exists_eq_succ_of_ne_zero positive
      exact .on statement (triggered.counts kind) (by grind)
    case isFalse => exact .off rfl fun starts => started (by simpa using starts)
  case h_3 => exact .off rfl fun starts => started (by simpa using starts)

/-- To be between parentheses is that the innermost open bracket is one. -/
lemma inParens_eq : lx.inParens = ((lx.brackets.map Prod.fst).head? == some .paren) := by
  rw [inParens]
  split
  · rename_i inside
    rw [inside]
    rfl
  · rename_i other
    match inside : lx.brackets with
    | [] => rfl
    | (.brace, _) :: _ => rfl
    | (.paren, opened) :: outer => exact absurd inside (other _ _)

/-- One token is read where it is written, and the lexer stands behind it. -/
lemma Follows.next (follows : lx.Follows options before earlier)
    (read : lx.next options = (.ok token, last)) :
    ∃ gap taken, lx.rest = gap ++ (taken ++ last.rest) ∧
      Gap options ((openBrackets earlier).head? == some .paren) (taken ++ last.rest) gap ∧
      Spelled options (Triggered options earlier 0) last.rest token.kind token.lexeme.toList taken ∧
      token.span = ⟨.behind (before ++ gap), .behind (before ++ gap ++ taken)⟩ ∧
      (token.spaced ↔ gap ≠ [] ∨ before ++ gap = []) ∧
      last.Follows options (before ++ gap ++ taken) (earlier ++ [token]) := by
  obtain ⟨mid, scanned, rfl⟩ := next_ok read
  obtain ⟨gap, taken, more⟩ := scan_taken scanned
  have started : lx.location = Location.origin.after before := by
    rw [Location.after_origin, follows.location]
  have stop : mid.location = .behind (before ++ gap ++ taken) := by
    rw [more.location, started, ← Location.after_append, Location.after_origin, List.append_assoc]
  refine ⟨gap, taken, ?_, ?_, ?_, ?_, ?_, ?_⟩
  · rw [trackTriggers_rest, more.rest]
  · rw [trackTriggers_rest, ← follows.nesting, ← inParens_eq]
    exact more.skipped
  · rw [trackTriggers_rest]
    exact more.spelled.mono follows.attends.due
  · have start : token.span.start = .behind (before ++ gap) := by
      rw [more.start, started, ← Location.after_append, Location.after_origin]
    rw [← start, ← stop, ← more.stop]
  · rw [more.spaced, follows.offset]
    cases gap <;> simp
  · refine ⟨?_, ?_, ?_, ?_⟩
    · rw [trackTriggers_offset, more.offset, follows.offset, ← List.length_append,
        List.append_assoc]
    · rw [trackTriggers_location, stop]
    · rw [trackTriggers_brackets, more.nesting, follows.nesting, openBrackets_append]
    · have kept := more.verbatim.imp_right And.right
      exact (follows.attends.of_eq more.atStatement kept).trackTriggers token

/-- The tokens that are read are written where they are read. -/
lemma Reads.tiling (reads : Reads options lx tokens last)
    (follows : lx.Follows options before earlier) :
    ∃ text, last.Follows options (before ++ text) (earlier ++ tokens) ∧
      lx.rest = text ++ last.rest ∧
      ∀ more, Tiling options (before ++ text) (earlier ++ tokens) more last.rest →
        Tiling options before earlier (tokens ++ more) lx.rest := by
  induction reads generalizing before earlier with
  | nil =>
    refine ⟨[], ?_, rfl, fun more tiling => ?_⟩
    · rwa [List.append_nil, List.append_nil]
    · rwa [List.append_nil, List.append_nil] at tiling
  | cons read inner shorter _ ih =>
    obtain ⟨gap, taken, rest, skipped, spelled, span, spaced, follows⟩ := follows.next read
    obtain ⟨text, behind, left, tiled⟩ := ih follows
    refine ⟨gap ++ taken ++ text, ?_, ?_, fun more tiling => ?_⟩
    · simpa using behind
    · rw [rest, left]
      simp
    · rw [rest]
      refine .cons skipped spelled span spaced (tiled more ?_)
      simpa using tiling

/-- Tokens that are read in front of others are no end markers. -/
lemma Reads.inner (reads : Reads options lx tokens last) :
    ∀ token ∈ tokens, token.kind ≠ .endMarker := by
  induction reads with
  | nil => nofun
  | cons _ inner _ _ ih => exact List.forall_mem_cons.2 ⟨inner, ih⟩

/-- A token starts where the lexer stands or behind, and the lexer moves behind its start. -/
lemma next_forward (read : lx.next options = (.ok token, last)) (inner : token.kind ≠ .endMarker) :
    lx.location.UpTo token.span.start ∧ ¬ last.location.UpTo token.span.start := by
  obtain ⟨mid, scanned, rfl⟩ := next_ok read
  obtain ⟨gap, taken, more⟩ := scan_taken scanned
  rw [trackTriggers_location, more.location, more.start, Location.after_append]
  exact ⟨Location.upTo_after _ gap, Location.not_after_upTo (more.spelled.ne_nil inner) _⟩

/-- Reading leads on in the text. -/
lemma next_upTo (read : lx.next options = (.ok token, last)) : lx.location.UpTo last.location := by
  obtain ⟨mid, scanned, rfl⟩ := next_ok read
  obtain ⟨gap, taken, more⟩ := scan_taken scanned
  rw [trackTriggers_location, more.location]
  exact Location.upTo_after _ _

/-- No token is read twice: each starts behind where the one before it was read. -/
lemma Reads.nodup (reads : Reads options lx tokens last) :
    tokens.Nodup ∧ ∀ t ∈ tokens, lx.location.UpTo t.span.start := by
  induction reads with
  | nil => exact ⟨.nil, fun _ inside => absurd inside List.not_mem_nil⟩
  | @cons _ _ _ token tokens read inner _ _ ih =>
    obtain ⟨first, behind⟩ := next_forward read inner
    refine ⟨List.nodup_cons.2 ⟨fun again => behind (ih.2 token again), ih.1⟩, ?_⟩
    exact List.forall_mem_cons.2 ⟨first, fun t inside => (next_upTo read).trans (ih.2 t inside)⟩

/-- At the start of a text no token has been read. -/
lemma ofText_follows (source : String) : (ofText source).Follows options [] [] where
  offset := rfl
  location := rfl
  nesting := rfl
  attends := .off rfl fun _ => nofun

end Lexer

/-- What is written behind a text starts behind it. -/
lemma Tiling.starts {text : List Char} (tiling : Tiling options before earlier tokens text) :
    ∀ token ∈ tokens, (Location.behind before).UpTo token.span.start := by
  induction tiling with
  | nil => nofun
  | @cons before earlier gap taken rest token tokens _ _ span _ _ ih =>
    have first : (Location.behind before).UpTo (.behind (before ++ gap)) := by
      rw [← Location.after_origin, ← Location.after_origin, Location.after_append]
      exact Location.upTo_after _ gap
    have later : (Location.behind before).UpTo (.behind (before ++ gap ++ taken)) := by
      refine first.trans ?_
      rw [← Location.after_origin, ← Location.after_origin, Location.after_append _ (_ ++ _)]
      exact Location.upTo_after _ taken
    refine List.forall_mem_cons.2 ⟨?_, fun other inside => later.trans (ih other inside)⟩
    rw [span]
    exact first

/-- Tokens that tile a text are in order, and none reaches into the next. -/
lemma Tiling.ordered {text : List Char} (tiling : Tiling options before earlier tokens text) :
    tokens.Pairwise fun first later => first.span.stop.UpTo later.span.start := by
  induction tiling with
  | nil => exact .nil
  | cons _ _ span _ more ih =>
    refine .cons ?_ ih
    rw [span]
    exact more.starts

/-- The last token ends where the text ends. -/
lemma Tiling.stops {text : List Char} (tiling : Tiling options before earlier tokens text) :
    ∀ token ∈ tokens.getLast?, token.span.stop = .behind (before ++ text) := by
  induction tiling with
  | nil => nofun
  | @cons before earlier gap taken rest token tokens _ _ span _ more ih =>
    intro token here
    cases tokens with
    | nil =>
      cases more
      cases here
      show token.span.stop = _
      rw [span]
      simp
    | cons next tokens =>
      rw [List.getLast?_cons_cons] at here
      rw [ih token here]
      simp

/-- A token of a text is not empty. -/
lemma Tiling.filled {text : List Char} (tiling : Tiling options before earlier tokens text) :
    ∀ token ∈ tokens, token.kind ≠ .endMarker →
      token.span.start.UpTo token.span.stop ∧ ¬ token.span.stop.UpTo token.span.start := by
  induction tiling with
  | nil => nofun
  | @cons before earlier gap taken rest token tokens _ spelled span _ _ ih =>
    refine List.forall_mem_cons.2 ⟨fun inner => ?_, ih⟩
    rw [span, ← Location.after_origin, ← Location.after_origin, Location.after_append _ (_ ++ _)]
    exact ⟨Location.upTo_after _ taken, Location.not_after_upTo (spelled.ne_nil inner) _⟩

/-- The tokens that a script is split into tile it. -/
lemma tokenize_tiling {source : String} (split : tokenize options source = .ok tokens) :
    Tiling options [] [] tokens source.toList ∧ Grammar.EndsOnce tokens := by
  obtain ⟨front, last, result, reads, halts⟩ := Lexer.reads_through options (.ofText source)
  cases halts with
  | fails fails =>
    rw [tokenize_fails reads (.fails fails)] at split
    cases split
  | @ends marker behind ends kind =>
    rw [tokenize_ends reads (.ends ends kind)] at split
    cases split
    obtain ⟨text, follows, left, tiled⟩ := reads.tiling (Lexer.ofText_follows source)
    obtain ⟨gap, taken, rest, skipped, spelled, span, spaced, _⟩ := follows.next ends
    refine ⟨tiled [marker] ?_, front, marker, rfl, kind, reads.inner⟩
    rw [rest]
    refine .cons skipped spelled span spaced ?_
    rw [spelled.ends kind]
    exact .nil

/-- What a script is split into tiles it: each token is written where its span says, and between two
tokens there are blanks, comments, and line feeds that separate nothing. -/
theorem tokens_tile {source : String} (split : tokenize options source = .ok tokens) :
    Tiling options [] [] tokens source.toList ∧ Grammar.EndsOnce tokens ∧
      (tokens.Pairwise fun first later => first.span.stop.UpTo later.span.start) ∧
      ∀ marker ∈ tokens.getLast?, marker.span.stop = .behind source.toList := by
  obtain ⟨tiling, endsOnce⟩ := tokenize_tiling split
  exact ⟨tiling, endsOnce, tiling.ordered, tiling.stops⟩

/-- One trigger, which takes the text behind its name. -/
def noting : Options where
  triggers := .ofList [("note", 0)]

/-- A comment and a line feed inside parentheses, a quoted literal, and verbatim text with a blank
at its end. -/
theorem note_tiled :
    ∃ tokens, tokenize noting "(a #b\n) \"\\n\";note  x y ;" = .ok tokens ∧
      tokens.map Token.lexeme = ["(", "a", ")", "\n", ";", "note", "x y", ";", ""] ∧
      Tiling noting [] [] tokens "(a #b\n) \"\\n\";note  x y ;".toList ∧ Grammar.EndsOnce tokens ∧
      (tokens.Pairwise fun first later => first.span.stop.UpTo later.span.start) ∧
      ∀ marker ∈ tokens.getLast?, marker.span.stop = .behind "(a #b\n) \"\\n\";note  x y ;".toList :=
  ⟨_, rfl, by decide, tokens_tile rfl⟩

end Scriptlet
