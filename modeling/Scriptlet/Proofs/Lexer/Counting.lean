import Scriptlet.Proofs.Lexer.Mending
import Scriptlet.Proofs.Lexer.Tiling

/-!
# Counting literals

A trigger is looked for where a statement may start (`Seeks`), and from its name on the lexer counts
the literals that are missing (`Reads.counts`). Which tokens come before the name decides whether it
is looked for: a separator always lets the lexer look, a bracket only if no trigger waits when it is
read (`Attentive.seeks`).
-/

namespace Scriptlet

/-- Where a trigger stands from which so many literals are missing. -/
def Verbatim.missing : Nat → Verbatim
  | 0 => .now
  | count + 1 => .awaiting (count + 1)

/-- The brackets behind which a statement may start. -/
def leadingBrackets : List TokenKind :=
  [.openBrace, .closeBrace, .closeParen]

/-- Triggers are looked for behind the tokens: behind none, behind a separator, and behind a bracket
in front of which no trigger waits for literals. -/
def Attentive (options : Options) (before : List Token) : Prop :=
  ∀ earlier last, before = earlier ++ [last] →
    last.kind = .separator ∨
      last.kind ∈ leadingBrackets ∧ ∀ missing, Triggered options earlier missing → missing = 0

variable {options : Options} {source : String} {before literals tokens more : List Token}
  {token name : Token} {count : Nat}

namespace Lexer

variable {lx mid last : Lexer}

/-- No trigger is open, and the next token may be the name of one. -/
structure Seeks (lx : Lexer) : Prop where
  off : lx.verbatim = .off
  atStatement : lx.atStatement = true

/-- A reading gives a trigger up that is due, unless it reads verbatim text, and leaves all others
to the token. -/
lemma next_mode (read : lx.next options = (.ok token, last)) :
    ∃ mid : Lexer, last = mid.trackTriggers options token ∧ mid.atStatement = lx.atStatement ∧
      (mid.verbatim = lx.verbatim ∨ lx.verbatim = .now ∧ mid.verbatim = .off) ∧
      (mid.verbatim = .now → token.kind = .literal) := by
  obtain ⟨mid, scanned, rfl⟩ := next_ok read
  obtain ⟨gap, taken, more⟩ := scan_taken scanned
  refine ⟨mid, rfl, more.atStatement, more.verbatim, fun now => ?_⟩
  by_cases due : lx.verbatim = .now
  · rw [scan_now due] at scanned
    split at scanned
    case isTrue =>
      -- no verbatim text: the trigger was given up before the token was read
      obtain ⟨gap, taken, given⟩ := ordinary_taken False scanned
      obtain off | ⟨off, -⟩ := given.verbatim
      · cases now.symm.trans off
      · cases off
    case isFalse =>
      cases scanned
      rfl
  · obtain kept | ⟨kept, -⟩ := more.verbatim
    · exact absurd (kept.symm.trans now) due
    · exact absurd kept due

/-- Behind a separator triggers are looked for. -/
lemma next_separator (read : lx.next options = (.ok token, last))
    (kind : token.kind = .separator) : last.Seeks := by
  obtain ⟨mid, rfl, -, -, -⟩ := next_mode read
  refine ⟨trackTriggers_off (by simp [kind]), ?_⟩
  rw [trackTriggers]
  split <;> simp [kind]

/-- Behind a bracket triggers are looked for, if none waits for literals. -/
lemma next_bracket (read : lx.next options = (.ok token, last))
    (kind : token.kind ∈ leadingBrackets) (quiet : ∀ count, lx.verbatim ≠ .awaiting count) :
    last.Seeks := by
  obtain ⟨mid, rfl, -, kept, verbatim⟩ := next_mode read
  have other : token.kind ≠ .literal := fun literal => absurd (literal ▸ kind) (by decide)
  have off : mid.verbatim = .off := by
    cases mode : mid.verbatim with
    | off => rfl
    | now => exact absurd (verbatim mode) other
    | awaiting count =>
      rw [mode] at kept
      obtain kept | ⟨-, kept⟩ := kept
      · exact absurd kept.symm (quiet count)
      · cases kept
  refine ⟨trackTriggers_off other, ?_⟩
  rw [trackTriggers, off]
  obtain kind | kind | kind : token.kind = .openBrace ∨ token.kind = .closeBrace ∨
      token.kind = .closeParen := by simpa [leadingBrackets] using kind
  all_goals simp [kind]

/-- Where no trigger is open, what becomes of that is left to the token. -/
lemma next_off (off : lx.verbatim = .off) (read : lx.next options = (.ok token, last)) :
    ∃ mid : Lexer, last = mid.trackTriggers options token ∧ mid.atStatement = lx.atStatement ∧
      mid.verbatim = .off := by
  obtain ⟨mid, same, statement, kept | ⟨-, off⟩, -⟩ := next_mode read
  · exact ⟨mid, same, statement, kept.trans off⟩
  · exact ⟨mid, same, statement, off⟩

/-- The name of a trigger is noticed. -/
lemma Seeks.next (seeks : lx.Seeks) (read : lx.next options = (.ok token, last))
    (literal : token.kind = .literal) (trigger : options.triggers.get? token.lexeme = some count) :
    last.verbatim = .missing count := by
  obtain ⟨mid, rfl, statement, off⟩ := next_off seeks.off read
  rw [trackTriggers, off, literal]
  cases count with
  | zero => simp [statement, seeks.atStatement, trigger, Verbatim.missing]
  | succ count => simp [statement, seeks.atStatement, trigger, Verbatim.missing]

/-- A literal behind the name of a trigger counts. -/
lemma next_counts (waits : lx.verbatim = .missing (count + 1))
    (read : lx.next options = (.ok token, last)) (literal : token.kind = .literal) :
    last.verbatim = .missing count := by
  obtain ⟨mid, rfl, -, kept, -⟩ := next_mode read
  have waits : mid.verbatim = .awaiting (count + 1) := by
    obtain kept | ⟨now, -⟩ := kept
    · exact kept.trans waits
    · cases waits.symm.trans now
  rw [trackTriggers, waits]
  cases count with
  | zero => simp [literal, Verbatim.missing]
  | succ count => simp [literal, Verbatim.missing]

/-- Where no trigger is looked for, a literal changes nothing. -/
lemma next_ignores (off : lx.verbatim = .off) (deaf : lx.atStatement = false)
    (read : lx.next options = (.ok token, last)) (literal : token.kind = .literal) :
    last.verbatim = .off ∧ last.atStatement = false := by
  obtain ⟨mid, rfl, statement, off⟩ := next_off off read
  rw [trackTriggers, off, literal]
  simp [statement, deaf]

/-- What is read in one go is read in two. -/
lemma Reads.split (reads : lx.Reads options (tokens ++ more) last) :
    ∃ mid, lx.Reads options tokens mid ∧ mid.Reads options more last := by
  induction tokens generalizing lx with
  | nil => exact ⟨lx, .nil, reads⟩
  | cons token tokens ih =>
    cases reads with
    | cons read inner shorter rest =>
      obtain ⟨mid, first, second⟩ := ih rest
      exact ⟨mid, .cons read inner shorter first, second⟩

/-- The last of the tokens is read behind the others. -/
lemma Reads.unsnoc (reads : lx.Reads options (tokens ++ [token]) last) :
    ∃ mid, lx.Reads options tokens mid ∧ mid.next options = (.ok token, last) := by
  obtain ⟨mid, first, second⟩ := reads.split
  cases second with
  | cons read _ _ rest =>
    cases rest
    exact ⟨mid, first, read⟩

/-- Each token of a script is read behind those before it, and so is the one behind it. -/
lemma read_at (split : tokenize options source = .ok (tokens ++ token :: more)) :
    ∃ here mid, (ofText source).Reads options tokens here ∧ here.next options = (.ok token, mid) ∧
      ∀ later ∈ more.head?, ∃ last, mid.next options = (.ok later, last) := by
  obtain ⟨front, last, marker, behind, reads, ends, -, whole⟩ := reads_of_tokenize split
  obtain ⟨extra, rfl, there⟩ | ⟨extra, rfl, there⟩ := List.append_eq_append_iff.1 whole.symm
  · -- the marker is the token, and nothing comes behind it
    obtain ⟨rfl, same⟩ := (List.singleton_eq_append_iff.1 there).resolve_right (by simp)
    cases same
    rw [List.append_nil]
    exact ⟨last, behind, reads, ends, fun _ first => absurd first (Option.not_mem_none _)⟩
  obtain ⟨here, before, rest⟩ := reads.split
  cases rest with
  | nil =>
    cases there
    exact ⟨_, behind, before, ends, fun _ first => absurd first (Option.not_mem_none _)⟩
  | @cons _ mid _ t extra read _ _ rest =>
    obtain ⟨rfl, rfl⟩ := List.cons.inj there
    refine ⟨here, mid, before, read, fun later first => ?_⟩
    cases rest with
    | nil =>
      cases first
      exact ⟨behind, ends⟩
    | @cons _ next _ _ _ read =>
      cases first
      exact ⟨next, read⟩

/-- The literals that a trigger waits for are counted. -/
lemma Reads.counts (reads : lx.Reads options literals last)
    (kinds : ∀ t ∈ literals, t.kind = .literal)
    (waits : lx.verbatim = .missing literals.length) : last.verbatim = .now := by
  induction reads with
  | nil => exact waits
  | @cons _ _ _ token tokens read _ _ _ ih =>
    obtain ⟨literal, kinds⟩ := List.forall_mem_cons.1 kinds
    rw [List.length_cons] at waits
    exact ih kinds (next_counts waits read literal)

/-- Literals that no trigger comes before are not counted. -/
lemma Reads.ignores (reads : lx.Reads options literals last)
    (kinds : ∀ t ∈ literals, t.kind = .literal) (off : lx.verbatim = .off)
    (deaf : lx.atStatement = false) : last.verbatim = .off := by
  induction reads with
  | nil => exact off
  | cons read _ _ _ ih =>
    obtain ⟨literal, kinds⟩ := List.forall_mem_cons.1 kinds
    obtain ⟨off, deaf⟩ := next_ignores off deaf read literal
    exact ih kinds off deaf

/-- The name of a trigger and as many literals as it counts make verbatim text due. -/
lemma Seeks.due (seeks : lx.Seeks) (reads : lx.Reads options (name :: literals) last)
    (literal : name.kind = .literal) (kinds : ∀ t ∈ literals, t.kind = .literal)
    (trigger : options.triggers.get? name.lexeme = some literals.length) :
    last.verbatim = .now := by
  cases reads with
  | cons read _ _ rest => exact rest.counts kinds (seeks.next read literal trigger)

/-- No trigger is open where a statement may start. -/
lemma off_of_startsStatement (reads : (ofText source).Reads options before lx)
    (starts : StartsStatement before) : lx.verbatim = .off := by
  cases before using List.reverseRecOn with
  | nil =>
    cases reads
    rfl
  | append_singleton earlier token =>
    obtain ⟨mid, -, read⟩ := reads.unsnoc
    obtain ⟨mid, -, rfl⟩ := next_ok read
    have kind := starts token (by simp)
    refine trackTriggers_off fun literal => ?_
    simp [literal] at kind

/-- Only triggers that are looked for make verbatim text due. -/
lemma seeks_of_due (reads : (ofText source).Reads options before lx)
    (starts : StartsStatement before) (counted : lx.Reads options literals last)
    (kinds : ∀ t ∈ literals, t.kind = .literal) (due : last.verbatim = .now) : lx.Seeks := by
  have off := off_of_startsStatement reads starts
  refine ⟨off, ?_⟩
  cases deaf : lx.atStatement with
  | true => rfl
  | false => cases due.symm.trans (counted.ignores kinds off deaf)

end Lexer

/-- Where the tokens before wait for a trigger, so does the lexer. -/
lemma Attentive.seeks (attentive : Attentive options before) {lx : Lexer}
    (reads : (Lexer.ofText source).Reads options before lx) : lx.Seeks := by
  cases before using List.reverseRecOn with
  | nil =>
    cases reads
    exact ⟨rfl, rfl⟩
  | append_singleton earlier token =>
    obtain ⟨mid, first, read⟩ := reads.unsnoc
    obtain kind | ⟨kind, quiet⟩ := attentive earlier token rfl
    · exact Lexer.next_separator read kind
    · refine Lexer.next_bracket read kind fun count waits => ?_
      obtain ⟨text, follows, -, -⟩ := first.tiling (Lexer.ofText_follows source)
      obtain ⟨positive, triggered⟩ := follows.attends.counting waits
      exact positive (quiet count triggered)

end Scriptlet
