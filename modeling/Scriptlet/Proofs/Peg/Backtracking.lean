import Scriptlet.Proofs.Peg.Agreement

/-!
# What a caller can rely on

A rule that is done has taken the first of the tokens and restored the depth; one that is absent has
changed nothing, so that its caller goes on from where it was. This holds for any list of tokens,
with and without a bound on the nesting.
-/

namespace Scriptlet.Peg

variable {s : Shape} {e : Expr s} {c rest : Cursor} {o : Outcome s.Value} {value : s.Value}

/-- What is left are the last of the tokens, at the depth of the start. -/
lemma Runs.restores (runs : Runs e c (.done value rest)) :
    rest.tokens <:+ c.tokens ∧ rest.depth = c.depth ∧ rest.maxDepth = c.maxDepth := by
  obtain ⟨taken, leaving⟩ := runs.leaving
  exact ⟨leaving.takes.suffix, leaving.takes.depth, leaving.takes.maxDepth⟩

/-- Where an expression that consumes is done, there are fewer tokens. -/
lemma Runs.shortens (runs : Runs e c (.done value rest)) (consumes : e.consumes) :
    rest.tokens.length < c.tokens.length := by
  obtain ⟨taken, leaving⟩ := runs.leaving
  exact leaving.shorter consumes

/-- Where the first expression is absent, the second starts from the same cursor. -/
lemma Runs.or_iff (absent : Runs e c .absent) {other : Expr s} :
    Runs (.or e other) c o ↔ Runs other c o := by
  constructor
  · intro runs
    cases runs with
    | or first present => exact absurd (first.unique absent) present
    | or_second _ second => exact second
  · exact .or_second absent

/-- The bodies of the loops of a rule consume, and their loops have a run. -/
lemma Name.loops_end (name : Name s) {loop : Sigma Expr} (mem : loop ∈ name.body.loops) :
    loop.2.consumes ∧ ∀ c, ∃ o, Runs (.zeroOrMore loop.2) c o := by
  obtain ⟨consumes, settled⟩ :=
    Expr.settled_loops name.settled_body (Nat.le_of_lt name.rank_lt_top) loop mem
  exact ⟨consumes, fun c => loop_has_run consumes fun mid _ => Expr.has_run settled mid⟩

/-- Rules consume and restore, whatever tokens are left, however many levels are open, and with or
without a bound on them. A rule has a run, and only one. Where it is done, it leaves the last of its
tokens, and the depth and its bound are what they were. What a rule repeats is a separator, a
separated statement, an argument or an adjacent piece; where one of these is done, it leaves fewer
tokens, and its repetition has a run. Where the rule is absent, the caller goes on from the cursor
that it had: an alternative starts there, an option and a repetition leave it, and an error is
reported for its next token. In front of an end marker, these runs are what the parsers return. -/
theorem Name.consumes_and_restores {s : Shape} (name : Name s) (c : Cursor) :
    (∃ o, Runs (.rule name) c o ∧ ∀ o', Runs (.rule name) c o' → o' = o) ∧
    (∀ value rest, Runs (.rule name) c (.done value rest) →
      rest.tokens <:+ c.tokens ∧ rest.depth = c.depth ∧ rest.maxDepth = c.maxDepth) ∧
    (∀ loop ∈ name.body.loops,
      loop ∈ [⟨_, .separator⟩, ⟨_, .separated⟩, ⟨_, .rule .argument⟩, ⟨_, .adjacentPiece⟩] ∧
      (∀ value rest, Runs loop.2 c (.done value rest) →
        rest.tokens <:+ c.tokens ∧ rest.tokens.length < c.tokens.length) ∧
      ∃ o, Runs (.zeroOrMore loop.2) c o) ∧
    (Runs (.rule name) c .absent →
      (∀ other o, Runs (.or (.rule name) other) c o ↔ Runs other c o) ∧
      Runs (.maybe (.rule name)) c (.done none c) ∧
      Runs (.zeroOrMore (.rule name)) c (.done [] c) ∧
      ∀ fault, Runs (.commit fault (.rule name)) c (.failed (c.error (fault c.tokens.head?)))) ∧
    ∀ limit tokens, (∃ t ∈ tokens, t.kind = .endMarker) →
      (∃ o, Runs (.rule .file) ⟨tokens, 0, limit⟩ o ∧
        Grammar.parseTokens limit tokens = Grammar.finish tokens o.step) ∧
      ∃ o, Runs (.rule .interactive) ⟨tokens, 0, limit⟩ o ∧
        Grammar.parseSingle limit tokens = Grammar.finish tokens o.step := by
  refine ⟨?_, fun _ _ runs => runs.restores, fun loop mem => ?_, fun absent => ?_,
    fun limit tokens ahead => ⟨parseTokens_runs limit ahead, parseSingle_runs limit ahead⟩⟩
  · obtain ⟨o, runs⟩ := name.has_run c
    exact ⟨o, runs, fun _ other => other.unique runs⟩
  · obtain ⟨consumes, ends⟩ := name.loops_end mem
    exact ⟨name.loops_subset mem, fun _ _ runs => ⟨runs.restores.1, runs.shortens consumes⟩, ends c⟩
  · exact ⟨fun _ _ => absent.or_iff, .maybe absent, .stop absent, fun _ => .commit absent⟩

end Scriptlet.Peg
