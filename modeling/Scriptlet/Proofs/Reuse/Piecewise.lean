import Scriptlet.Proofs.Flow.Return
import Scriptlet.Proofs.Reuse.History

/-!
# Scripts run in pieces

A script that is run in two pieces on one context does what it does in one run, as long as the cut is
not in front of a control call: the second run counts its root before its first statement, which
closes the else-chain that the first run may have left open. The root also takes the one step that
the two runs take more.
-/

namespace Scriptlet

open Evaluation

variable {σ γ : Type} [RandomSource γ] {random : Slot σ γ} {streams : Slot σ Streams}

/-- The call that a handler serves, if that is what happens. -/
def Event.handled? : Event → Option ActiveCall
  | .handler call => some call
  | _ => none

namespace Interpreter

variable {it : Interpreter σ} {p q : Past}

/-- The calls that handlers serve in a run, in order. -/
def handlerCalls (it : Interpreter σ) (node : Node Token) (s : State σ) : List ActiveCall :=
  ((it.moments node s).map Moment.event).filterMap Event.handled?

/-- The state in which the statements of a piece are run: its step is taken, and it is counted. -/
def entered (it : Interpreter σ) (node : Node Token) (s : State (Recorded σ)) : State (Recorded σ) :=
  withScopes (·.modifyTop Frame.countStatement) (it.takeStep node.start s)

/-- How the statements of a script are run. -/
def runInScript (it : Interpreter σ) (statement : Statement Token) : Evaluation (Recorded σ) Unit :=
  it.recorded.runNode (it.fuel - 1) (.statement statement)

/-- Without a ceiling, interpreting a script is running its statements. -/
lemma interpret_script (unlimited : it.limits.maxSteps = 0) (body : List (Statement Token))
    (s : State (Recorded σ)) :
    it.recorded.interpret (.script body) s =
      sequence it.runInScript body (it.entered (.script body) s) := by
  have fuel : it.fuel = it.fuel - 1 + 1 := by
    rw [Interpreter.fuel, if_pos unlimited, Nat.sub_add_cancel (Nat.pow_pos (n := 62) Nat.two_pos)]
  show it.recorded.runNode it.fuel (.script body) s = _
  rw [fuel, runNode]
  have stepped : it.recorded.step (Node.script body).start s =
      some (.ok (), it.takeStep (Node.script body).start s) := by
    rw [step_recorded, if_neg fun ceiling => absurd ceiling.1 (by omega)]
  rw [bind_of_ok stepped]
  rfl

/-- Statements go alike where the chain of the global frame is settled. -/
lemma sequence_mirrors (uses : it.Uses (Standard random streams)) (unwatched : it.Unwatched)
    (unlimited : it.limits.maxSteps = 0) (statements : List (Statement Token)) :
    Mirrors p q 2 0 (sequence it.runInScript statements) (sequence it.runInScript statements) :=
  sequence_lockstep Mirrors.placing.toLockstep
    (fun _ => (run_mirrors uses unwatched (.inl unlimited) _).1 2 0 (.inl (Nat.le_refl 2)) _) statements

/-- Statements go alike behind the global frame of another run, if they do not begin with a control
call. -/
lemma sequence_mirrors_cut (uses : it.Uses (Standard random streams)) (unwatched : it.Unwatched)
    (unlimited : it.limits.maxSteps = 0) {statements : List (Statement Token)}
    (cut : ∀ statement ∈ statements.head?, (Node.statement statement).kind ≠ .control) :
    Mirrors p q 0 0 (sequence it.runInScript statements) (sequence it.runInScript statements) := by
  cases statements with
  | nil => exact .pure ()
  | cons statement rest =>
    refine Mirrors.placing.context fun c c' like => ?_
    rw [like.isInterrupted]
    split
    · exact .pure ()
    · have others : Mirrors p q 1 0 (sequence it.runInScript rest) (sequence it.runInScript rest) :=
        sequence_lockstep Mirrors.placing.toLockstep
          (fun _ => runNode_mirrors uses unwatched (.inl unlimited) _ _) rest
      exact runNode_bind_mirrors uses unwatched (.inl unlimited) _ (cut statement rfl) others

/-- The same script is entered alike through two roots. -/
lemma alike_entered (unwatched : it.Unwatched) {s : State (Recorded σ)}
    (grounded : s.context.scopes.Grounded) (outermost : s.context.scopes.depth = 0)
    (fresh : s.past = ⟨[], 0⟩) (node node' : Node Token) :
    (it.entered node s).Alike ⟨[.step node.start], 1⟩ ⟨[.step node'.start], 1⟩ 2 0
      (it.entered node' s) where
  context := by
    have counted := (ScopeStack.Alike.refl grounded outermost 1).countStatement outermost
    exact ⟨counted, fun _ => rfl, rfl⟩
  depth := outermost
  host := by
    show it.observe _ _ _ = it.observe _ _ _
    rw [unwatched, unwatched]
  since := by
    have past : ∀ node, (it.entered node s).past = ⟨[.step node.start], 1⟩ ++ ⟨[], 0⟩ := by
      intro node
      have more : (it.entered node s).past = s.past ++ ⟨[.step node.start], 1⟩ :=
        State.past_takeStep it node.start s
      rw [more, fresh]
      rfl
    exact ⟨_, past node, past node'⟩

/-- Where one run goes on, the other can begin again, with one statement counted for its root. -/
lemma alike_again (unwatched : it.Unwatched) {s t : State (Recorded σ)}
    (alike : s.Alike p q 2 0 t) (goes_on : t.context.flow = .next) (node : Node Token) :
    s.Alike s.past ⟨[.step node.start], 1⟩ 0 0
      (it.entered node ((t.onContext .endRun).forget.recorded.onContext .beginRun)) where
  context := by
    have outermost : t.context.scopes.depth = 0 := alike.context.scopes.depth ▸ alike.depth
    refine ⟨?_, alike.context.definitions, alike.context.flow.trans goes_on⟩
    show s.context.scopes.Alike 0 (t.context.scopes.unwind.unwind.modifyTop Frame.countStatement)
    rw [ScopeStack.unwind_of_depth (ScopeStack.depth_unwind _), ScopeStack.unwind_of_depth outermost]
    exact alike.context.scopes.countRight alike.depth
  depth := alike.depth
  host := by
    show _ = it.observe _ _ _
    rw [unwatched]
    exact alike.host
  since := ⟨⟨[], 0⟩, (Past.append_nil _).symm, rfl⟩

/-- Where a piece of a script has ended well, the whole script goes on with the rest, from a state
like that in which the piece ended. -/
lemma interpret_append (uses : it.Uses (Standard random streams)) (unwatched : it.Unwatched)
    (unlimited : it.limits.maxSteps = 0) {s t : State (Recorded σ)}
    (grounded : s.context.scopes.Grounded) (outermost : s.context.scopes.depth = 0)
    (fresh : s.past = ⟨[], 0⟩) {before : List (Statement Token)} (behind : List (Statement Token))
    (ran : it.recorded.interpret (.script before) s = some (.ok (), t)) :
    ∃ t', it.recorded.interpret (.script (before ++ behind)) s = sequence it.runInScript behind t' ∧
      t'.Alike ⟨[.step (Node.script (before ++ behind)).start], 1⟩
        ⟨[.step (Node.script before).start], 1⟩ 2 0 t := by
  have entered := alike_entered unwatched grounded outermost fresh (.script (before ++ behind))
    (.script before)
  rw [interpret_script unlimited] at ran
  obtain ⟨t', ran', alike⟩ :=
    (sequence_mirrors uses unwatched unlimited before).exists_of_some entered ran
  refine ⟨t', ?_, alike⟩
  rw [interpret_script unlimited, sequence_append, bind_of_ok ran']

/-- If the first piece of a script ends well and does not stop, the second piece does afterwards what
it does behind the first in one run, and the two runs take one step more, unless the second begins
with a control call. -/
theorem piecewise (uses : it.Uses (Standard random streams)) (unwatched : it.Unwatched)
    (unlimited : it.limits.maxSteps = 0) {s s₁ : State σ} (start : s.Reachable)
    {before behind : List (Statement Token)}
    (cut : ∀ statement ∈ behind.head?, (Node.statement statement).kind ≠ .control)
    (first : it.runPiece (.script before) s = some (.ok (), s₁))
    (goes_on : s₁.context.isStopped = false) :
    Option.Rel (fun once second => once.1 = second.1 ∧ once.2.Same second.2 ∧
        once.2.context.steps + 1 = s₁.context.steps + second.2.context.steps ∧
        it.handlerCalls (.script (before ++ behind)) s =
          it.handlerCalls (.script before) s ++ it.handlerCalls (.script behind) s₁)
      (it.runPiece (.script (before ++ behind)) s) (it.runPiece (.script behind) s₁) := by
  have next : s₁.context.flow = .next := by
    have not_leaving := flow_runPiece_ne_leaving uses first
    rw [Context.isStopped, decide_eq_false_iff_not] at goes_on
    cases flow : s₁.context.flow <;> simp_all
  -- the first piece, alone and in front of the second
  rw [runPiece_eq] at first
  obtain ⟨⟨_, t⟩, ran, ended⟩ := Option.map_eq_some_iff.1 first
  cases ended
  obtain ⟨t', whole, alike⟩ :=
    interpret_append uses unwatched unlimited start.grounded.unwind rfl rfl behind ran
  -- the second piece, behind the first and alone
  have again := alike_again unwatched alike next (.script behind)
  have ends := sequence_mirrors_cut uses unwatched unlimited cut _ _ again
  rw [← whole, ← interpret_script unlimited] at ends
  rcases ends_cases (runPiece_mirrors ends) with
    ⟨left, right⟩ | ⟨_, _, left, right, same, after, later, events, events', steps, steps'⟩
  · rw [left, right]
    exact .none
  · rw [left, right]
    obtain ⟨news, told', told⟩ := alike.since
    refine .some ⟨same, after, ?_, ?_⟩
    · have first_steps : t.context.steps = 1 + news.steps := congrArg Past.steps told
      have before_cut : t'.past.steps = 1 + news.steps := congrArg Past.steps told'
      show _ = t.context.steps + _
      rw [steps, steps', first_steps, before_cut]
      show 1 + news.steps + later.steps + 1 = 1 + news.steps + (1 + later.steps)
      omega
    · have first_events : t.host.moments.map Moment.event = _ := congrArg Past.events told
      have before_cut : t'.past.events = _ := congrArg Past.events told'
      rw [handlerCalls, handlerCalls, handlerCalls, moments_eq ran, events, events', first_events,
        before_cut]
      show ((Event.step _ :: news.events) ++ later.events).filterMap Event.handled? =
        (Event.step _ :: news.events).filterMap _ ++ (Event.step _ :: later.events).filterMap _
      rw [List.filterMap_append]
      rfl

/-- A command may follow on a condition in a run of its own. -/
theorem untaken_then_command :
    let it := Console.interpreter.withLimits ⟨0, 0, 0⟩
    let fresh : State Console.Host := ⟨.initial, Console.start [] 0⟩
    let behind : List (Statement Token) :=
      [.command (.literal default "set") [.literal default "x", .literal default "1"]]
    ∃ between, it.runPiece untaken.root fresh = some (.ok (), between) ∧
      between.context.isStopped = false ∧
      Option.Rel (fun once second => once.1 = second.1 ∧ once.2.Same second.2 ∧
          once.2.context.steps + 1 = between.context.steps + second.2.context.steps ∧
          it.handlerCalls (.script (untaken.body ++ behind)) fresh =
            it.handlerCalls untaken.root fresh ++ it.handlerCalls (.script behind) between)
        (it.runPiece (.script (untaken.body ++ behind)) fresh)
        (it.runPiece (.script behind) between) := by
  intro it fresh behind
  obtain ⟨between, ran, goes_on⟩ : ∃ between, it.runPiece untaken.root fresh = some (.ok (), between) ∧
      between.context.isStopped = false := ⟨_, rfl, rfl⟩
  have uses : it.Uses (Standard Console.generator Console.streams) := Console.interpreter_uses
  have cut : ∀ statement ∈ behind.head?, (Node.statement statement).kind ≠ .control := by
    rintro _ ⟨⟩
    exact nofun
  exact ⟨between, ran, goes_on,
    piecewise uses (fun _ _ _ => rfl) rfl (.initial _) cut ran goes_on⟩

end Interpreter

end Scriptlet
