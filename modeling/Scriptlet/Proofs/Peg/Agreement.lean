import Scriptlet.Proofs.Peg.Denotation

/-!
# Runs come to what their expressions denote

A rule of the grammar counts down the room that is left and has a clock for each loop; a run counts
up the levels that are open, and goes on until it ends. In front of an end marker both come to the
same (`Runs.denotes`), the parser included (`parseTokens_runs`).
-/

namespace Scriptlet.Peg

open Rule (many manyFor map_apply bind_done bind_absent bind_failed orFail)

/-- How many levels the rules may open before a token is taken. -/
def Name.levels {s : Shape} : Name s → Nat
  | file | interactive | statements | statement => 2
  | command | argument | piece => 1
  | _ => 0

namespace Expr

/-- How many levels the expression may open before a token is taken. With each token that is taken
there is room for two more. -/
def levels : {s : Shape} → Expr s → Nat
  | _, token _ => 0
  | _, map body _ => body.levels
  | _, pair first second =>
    max first.levels (if first.consumes then second.levels - 2 else second.levels)
  | _, or first second => max first.levels second.levels
  | _, zeroOrMore body => body.levels
  | _, maybe body => body.levels
  | _, adjacent body => body.levels
  | _, commit _ body => body.levels
  | _, nested body => body.levels + 1
  | _, lookahead body => body.levels
  | _, rule name => name.levels

/-- Nothing comes behind the end marker, and the bodies of loops consume. -/
def guarded : {s : Shape} → Expr s → Bool
  | _, token _ => true
  | _, map body _ => body.guarded
  | _, pair first second => !first.ends && first.guarded && second.guarded
  | _, or first second => first.guarded && second.guarded
  | _, zeroOrMore body => body.consumes && !body.ends && body.guarded
  | _, maybe body => body.guarded
  | _, adjacent body => body.guarded
  | _, commit _ body => body.guarded
  | _, nested body => body.guarded
  | _, lookahead body => body.guarded
  | _, rule _ => true

end Expr

/-- A rule opens as many levels as its body, at least. -/
lemma Name.levels_body {s : Shape} (name : Name s) : name.body.levels ≤ name.levels := by
  cases name <;> decide

/-- In the body of every rule, nothing comes behind the end marker and the bodies of loops consume.
-/
lemma Name.guarded_body {s : Shape} (name : Name s) : name.body.guarded := by
  cases name <;> rfl

/-- An end marker is ahead. -/
def Cursor.Ahead (c : Cursor) : Prop :=
  ∃ t ∈ c.tokens, t.kind = .endMarker

/-- The room is what the limit leaves or, without a limit, enough for so many levels and two more with
each token. -/
structure Fits (limit room levels : Nat) (c : Cursor) : Prop where
  maxDepth : c.maxDepth = limit
  bounded : 0 < limit → room = limit - c.depth
  unbounded : limit = 0 → levels + 2 * c.tokens.length ≤ room

section Denotes

variable {limit room levels levels' : Nat} {s t : Shape} {e : Expr s} {c rest : Cursor}
  {o : Outcome s.Value} {taken : List Token}

/-- The room fits fewer levels as well. -/
lemma Fits.mono (fits : Fits limit room levels c) (fewer : levels' ≤ levels) :
    Fits limit room levels' c where
  maxDepth := fits.maxDepth
  bounded := fits.bounded
  unbounded none := Nat.le_trans (Nat.add_le_add_right fewer _) (fits.unbounded none)

/-- With the tokens that were taken, there is room for more levels. -/
lemma Fits.leave (fits : Fits limit room levels c) (takes : c.Takes taken rest)
    (fewer : levels' ≤ levels + 2 * taken.length) : Fits limit room levels' rest where
  maxDepth := takes.maxDepth.trans fits.maxDepth
  bounded limited := by rw [takes.depth, fits.bounded limited]
  unbounded none := by
    have enough := fits.unbounded none
    have split := takes.length
    omega

/-- Behind the first of two, the room fits the second: it has what the tokens the first took have
freed. -/
lemma Fits.behind {first : Expr s} {second : Expr t}
    (fits : Fits limit room (Expr.pair first second).levels c) (leaving : Leaving first c taken rest) :
    Fits limit room second.levels rest := by
  refine fits.leave leaving.takes ?_
  rw [Expr.levels]
  cases consumes : first.consumes with
  | false =>
    simp only [Bool.false_eq_true, if_false]
    omega
  | true =>
    have some := List.length_pos_iff.2 (leaving.consumed consumes)
    simp only [if_true]
    omega

/-- A level that is open takes one of the room. -/
lemma Fits.deeper (fits : Fits limit room (levels + 1) c) (vacant : ¬ c.Full) :
    ∃ less, room = less + 1 ∧ Fits limit less levels c.deeper := by
  have maxDepth := fits.maxDepth
  have bounded := fits.bounded
  have unbounded := fits.unbounded
  rw [Cursor.Full, not_and, Nat.not_le] at vacant
  obtain _ | less := room
  · obtain rfl | limited := Nat.eq_zero_or_pos limit
    · have enough := unbounded rfl
      omega
    · have short := bounded limited
      have left := vacant (by omega)
      omega
  · refine ⟨less, rfl, maxDepth, fun limited => ?_, fun none => ?_⟩
    · have room := bounded limited
      show less = limit - (c.depth + 1)
      omega
    · have enough := unbounded none
      show levels + 2 * c.tokens.length ≤ less
      omega

/-- Where no level may be opened, there is no room. -/
lemma Fits.full (fits : Fits limit room levels c) (full : c.Full) : room = 0 := by
  obtain ⟨some, deep⟩ := full
  have maxDepth := fits.maxDepth
  have bounded := fits.bounded (by omega)
  omega

/-- In front of an end marker, a clock that runs as long as there are tokens is running. -/
lemma Cursor.Ahead.clock {clock : List Token} (ahead : c.Ahead)
    (enough : c.tokens.length ≤ clock.length) : ∃ tick later, clock = tick :: later := by
  obtain ⟨t, mem, -⟩ := ahead
  exact List.exists_cons_of_length_pos (Nat.lt_of_lt_of_le (List.length_pos_of_mem mem) enough)

/-- An end marker stays ahead of what takes none. -/
lemma Leaving.ahead (leaving : Leaving e c taken rest) (closed : e.ends = false) (ahead : c.Ahead) :
    rest.Ahead := by
  obtain ⟨t, mem, kind⟩ := ahead
  rw [leaving.takes.tokens] at mem
  obtain mem | mem := List.mem_append.1 mem
  · exact absurd kind (leaving.unended closed t mem)
  · exact ⟨t, mem, kind⟩

/-- The expression denotes a rule with this result. In a repetition, any clock will do that runs as
long as there are tokens. -/
def Denotes (limit room : Nat) : {s : Shape} → Expr s → List Token → Step s.Value → Prop
  | _, .zeroOrMore body, tokens, step => ∀ clock : List Token, tokens.length ≤ clock.length →
    manyFor (body.denote limit (Name.grammar limit) room) clock tokens = step
  | _, e, tokens, step => e.denote limit (Name.grammar limit) room tokens = step

/-- With its own tokens as the clock, the expression denotes the rule. -/
lemma Denotes.denote {tokens : List Token} {step : Step s.Value}
    (denotes : Denotes limit room e tokens step) :
    e.denote limit (Name.grammar limit) room tokens = step := by
  cases e with
  | zeroOrMore body => exact denotes _ (Nat.le_refl _)
  | token | map | pair | or | maybe | adjacent | commit | nested | lookahead | rule => exact denotes

/-- A map over the value does not see the levels. -/
@[simp] lemma Outcome.step_map {α β : Type} {f : α → β} {o : Outcome α} :
    (o.map f).step = o.step.map f := by
  cases o <;> rfl

namespace Denotes

variable {kind : TokenKind} {body first : Expr s} {second : Expr t} {value : s.Value}

/-- A token of the kind that is not there. -/
lemma token_absent (other : ∀ t ∈ c.tokens.head?, t.kind ≠ kind) :
    Denotes limit room (.token kind) c.tokens .absent := by
  show Rule.token _ _ = _
  cases read : c.tokens with
  | nil => rfl
  | cons t rest =>
    rw [Rule.token, if_neg (other t (by rw [read]; rfl))]

/-- Two in turn: the second goes on where the first is done. -/
lemma pair {o : Outcome t.Value} (before : Denotes limit room first c.tokens (.done value rest.tokens))
    (behind : Denotes limit room second rest.tokens o.step) :
    Denotes limit room (.pair first second) c.tokens (o.map (Prod.mk value)).step := by
  show Expr.denote _ _ _ _ _ = _
  rw [Expr.denote, bind_done before.denote, bind_pure_comp, map_apply, behind.denote,
    Outcome.step_map]

/-- A round and those behind it. The clock counts tokens, and a round takes one at least. -/
lemma more {o : Outcome (List s.Value)} (ahead : c.Ahead)
    (shorter : rest.tokens.length < c.tokens.length)
    (round : Denotes limit room body c.tokens (.done value rest.tokens))
    (rounds : Denotes limit room (.zeroOrMore body) rest.tokens o.step) :
    Denotes limit room (.zeroOrMore body) c.tokens (o.map (List.cons value)).step := by
  intro clock enough
  obtain ⟨tick, clock, rfl⟩ := ahead.clock enough
  rw [List.length_cons] at enough
  rw [manyFor, round.denote]
  dsimp only
  rw [rounds clock (by omega)]
  cases o <;> rfl

/-- What is apart from what was read before is not adjacent to it. -/
lemma adjacent_absent (apart : ∀ t ∈ c.tokens.head?, t.spaced) :
    Denotes limit room (.adjacent body) c.tokens .absent := by
  show Expr.denote _ _ _ _ _ = _
  rw [Expr.denote]
  cases read : c.tokens with
  | nil => rfl
  | cons t rest =>
    rw [Rule.adjacent, if_pos (apart t (by rw [read]; rfl))]

end Denotes

/-- In front of an end marker, a run comes to what the expression denotes. -/
lemma Runs.denotes (runs : Runs e c o) (guarded : e.guarded) (fits : Fits limit room e.levels c)
    (ahead : c.Ahead) : Denotes limit room e c.tokens o.step := by
  -- along the run, for all rooms: what a level is opened for is denoted with less room
  induction runs generalizing room with
  | token read kind =>
    show Rule.token _ _ = _
    rw [read, Rule.token, if_pos kind]
    rfl
  | token_absent other => exact .token_absent other
  | map _ ih =>
    show Expr.denote _ _ _ _ _ = _
    rw [Expr.denote, map_apply, (ih guarded fits ahead).denote, Outcome.step_map]
  | pair run _ ih ih' =>
    obtain ⟨⟨closed, guarded⟩, guarded'⟩ : (_ ∧ _) ∧ _ := by simpa [Expr.guarded] using guarded
    obtain ⟨taken, leaving⟩ := run.leaving
    have before := ih guarded (fits.mono (Nat.le_max_left ..)) ahead
    have behind := ih' guarded' (fits.behind leaving) (leaving.ahead closed ahead)
    exact before.pair behind
  | pair_absent _ ih =>
    obtain ⟨⟨-, guarded⟩, -⟩ : (_ ∧ _) ∧ _ := by simpa [Expr.guarded] using guarded
    exact bind_absent (ih guarded (fits.mono (Nat.le_max_left ..)) ahead).denote
  | pair_failed _ ih =>
    obtain ⟨⟨-, guarded⟩, -⟩ : (_ ∧ _) ∧ _ := by simpa [Expr.guarded] using guarded
    exact bind_failed (ih guarded (fits.mono (Nat.le_max_left ..)) ahead).denote
  | @or _ _ _ _ o _ present ih =>
    rw [Expr.guarded, Bool.and_eq_true] at guarded
    show Expr.denote _ _ _ _ _ = _
    rw [Expr.denote, Rule.or, (ih guarded.1 (fits.mono (Nat.le_max_left ..)) ahead).denote]
    cases o with
    | absent => exact absurd rfl present
    | done | failed => rfl
  | or_second _ _ ih ih' =>
    rw [Expr.guarded, Bool.and_eq_true] at guarded
    show Expr.denote _ _ _ _ _ = _
    rw [Expr.denote, Rule.or, (ih guarded.1 (fits.mono (Nat.le_max_left ..)) ahead).denote]
    exact (ih' guarded.2 (fits.mono (Nat.le_max_right ..)) ahead).denote
  | more run _ ih ih' =>
    obtain ⟨⟨consumes, closed⟩, guarded'⟩ : (_ ∧ _) ∧ _ := by simpa [Expr.guarded] using guarded
    obtain ⟨taken, leaving⟩ := run.leaving
    have round := ih guarded' fits ahead
    have rounds := ih' guarded (fits.leave leaving.takes (by omega)) (leaving.ahead closed ahead)
    exact .more ahead (leaving.shorter consumes) round rounds
  | stop _ ih | more_failed _ ih =>
    obtain ⟨-, guarded⟩ : _ ∧ _ := by simpa [Expr.guarded] using guarded
    have round := (ih guarded fits ahead).denote
    intro clock enough
    obtain ⟨tick, clock, rfl⟩ := ahead.clock enough
    rw [manyFor, round]
    rfl
  | @maybe _ _ _ o _ ih =>
    show Expr.denote _ _ _ _ _ = _
    rw [Expr.denote, Rule.optional.eq_def, (ih guarded fits ahead).denote]
    cases o <;> rfl
  | adjacent read near _ ih =>
    have inner := (ih guarded fits ahead).denote
    show Expr.denote _ _ _ _ _ = _
    rw [read] at inner ⊢
    rw [Expr.denote, Rule.adjacent, near]
    exact inner
  | adjacent_absent apart => exact .adjacent_absent apart
  | @commit _ _ _ _ o _ ih =>
    show Expr.denote _ _ _ _ _ = _
    rw [Expr.denote, orFail, (ih guarded fits ahead).denote]
    cases o <;> rfl
  | @nested _ _ c o vacant _ ih =>
    obtain ⟨room, rfl, deeper⟩ := fits.deeper vacant
    show Expr.denote _ _ _ _ _ = _
    rw [Expr.denote]
    refine (ih guarded deeper ahead).denote.trans ?_
    cases o <;> rfl
  | nested_failed full =>
    obtain rfl := fits.full full
    show Expr.denote _ _ _ _ _ = _
    rw [Expr.denote, ← fits.maxDepth]
    rfl
  | @lookahead _ _ _ o _ ih =>
    show Expr.denote _ _ _ _ _ = _
    rw [Expr.denote, Rule.ahead, (ih guarded fits ahead).denote]
    cases o <;> rfl
  | @rule _ name _ _ _ ih =>
    show name.grammar limit room _ = _
    rw [← name.grammar_eq]
    exact (ih name.guarded_body (fits.mono name.levels_body) ahead).denote

/-- In front of an end marker, what a rule of the grammar comes to is the outcome of a run. -/
lemma Name.grammar_runs (name : Name s) (fits : Fits limit room name.levels c) (ahead : c.Ahead) :
    ∃ o, Runs (.rule name) c o ∧ name.grammar limit room c.tokens = o.step := by
  obtain ⟨o, runs⟩ := name.has_run c
  exact ⟨o, runs, (runs.denotes rfl fits ahead).denote⟩

end Denotes

section Parser

variable {tokens : List Token} (limit : Nat) (ahead : ∃ t ∈ tokens, t.kind = .endMarker)

/-- The room a parse starts with fits the two levels of a script. -/
lemma fits_room : Fits limit (Grammar.room limit tokens) 2 ⟨tokens, 0, limit⟩ where
  maxDepth := rfl
  bounded limited := by rw [Grammar.room, if_neg (Nat.ne_of_gt limited), Nat.sub_zero]
  unbounded none := by
    rw [Grammar.room, if_pos none]
    exact Nat.le_of_eq (Nat.add_comm ..)

include ahead

/-- The parser returns what comes of the rule for files. -/
theorem parseTokens_runs :
    ∃ o, Runs (.rule .file) ⟨tokens, 0, limit⟩ o ∧
      Grammar.parseTokens limit tokens = Grammar.finish tokens o.step := by
  obtain ⟨o, runs, same⟩ := Name.file.grammar_runs (fits_room limit) ahead
  exact ⟨o, runs, congrArg (Grammar.finish tokens) same⟩

/-- The parser of single statements returns what comes of its rule. -/
theorem parseSingle_runs :
    ∃ o, Runs (.rule .interactive) ⟨tokens, 0, limit⟩ o ∧
      Grammar.parseSingle limit tokens = Grammar.finish tokens o.step := by
  obtain ⟨o, runs, same⟩ := Name.interactive.grammar_runs (fits_room limit) ahead
  exact ⟨o, runs, congrArg (Grammar.finish tokens) same⟩

end Parser

end Scriptlet.Peg

