import Scriptlet.Console
import Scriptlet.Proofs.Reuse.Mirror

/-!
# Contexts that have served runs

What a run does on a context depends on its global variables and its definitions only, and not on
the runs that it has served, however those ended. The statements that the global frame has counted
and an else-chain that a run left open there are still in it, but a run counts its script before its
first statement, so no `elif` or `else` finds that chain (`history_independent`).
-/

namespace Scriptlet

open Evaluation

variable {σ γ : Type} [RandomSource γ] {random : Slot σ γ} {streams : Slot σ Streams}

/-- The contexts have the same global variables and the same definitions. -/
structure Context.SameGlobals (c c' : Context) : Prop where
  bindings : ∀ name, c.scopes.bindingAt? 0 name = c'.scopes.bindingAt? 0 name
  definitions : ∀ key, c.definitions.get? key = c'.definitions.get? key

/-- A host sees no difference after a run, but for the number of its steps. -/
structure State.Same (s t : State σ) : Prop where
  globals : s.context.SameGlobals t.context
  stopped : s.context.isStopped = t.context.isStopped
  host : s.host = t.host

/-- At the end of two runs that were alike, a host sees no difference. -/
lemma State.Alike.same {p q : Past} {counted : Nat} {s t : State (Recorded σ)}
    (h : s.Alike p q counted 0 t) :
    (s.onContext .endRun).forget.Same (t.onContext .endRun).forget where
  globals := by
    have outermost : t.context.scopes.depth = 0 := h.context.scopes.depth ▸ h.depth
    refine ⟨fun name => ?_, h.context.definitions⟩
    show s.context.scopes.unwind.bindingAt? 0 name = t.context.scopes.unwind.bindingAt? 0 name
    rw [ScopeStack.unwind_of_depth h.depth, ScopeStack.unwind_of_depth outermost]
    exact h.context.scopes.bindingAt? 0 name
  stopped := by
    show decide (s.context.flow = .stopped) = decide (t.context.flow = .stopped)
    rw [h.context.flow]
  host := h.host

/-- At the start of a run, nothing is left of the runs before it but the counters of the global
frame. -/
lemma State.Reachable.alike {s t : State σ} (hs : s.Reachable) (ht : t.Reachable)
    (globals : s.context.SameGlobals t.context) (host : s.host = t.host) :
    (s.recorded.onContext .beginRun).Alike ⟨[], 0⟩ ⟨[], 0⟩ 0 0 (t.recorded.onContext .beginRun) where
  context := by
    refine ⟨?_, globals.definitions, rfl⟩
    show s.context.scopes.unwind.Alike 0 t.context.scopes.unwind
    rw [ScopeStack.unwind_of_depth hs.depth, ScopeStack.unwind_of_depth ht.depth]
    exact .of_grounded hs.grounded ht.grounded hs.depth ht.depth globals.bindings
  depth := rfl
  host := host
  since := ⟨⟨[], 0⟩, rfl, rfl⟩

namespace Interpreter

variable {it : Interpreter σ}

/-- Runs end alike if what they interpret does. -/
lemma runPiece_mirrors {p q : Past} {counted : Nat} {node node' : Node Token} {s t : State σ}
    (ends : Option.Rel (fun ended ended' =>
        ended.1 = ended'.1 ∧ ended.2.Alike p q counted 0 ended'.2)
      (it.recorded.interpret node (s.recorded.onContext .beginRun))
      (it.recorded.interpret node' (t.recorded.onContext .beginRun))) :
    Option.Rel (fun ended ended' => ended.1 = ended'.1 ∧ ended.2.Same ended'.2 ∧
        ∃ news : Past,
          (it.moments node s).map Moment.event = p.events ++ news.events ∧
          (it.moments node' t).map Moment.event = q.events ++ news.events ∧
          ended.2.context.steps = p.steps + news.steps ∧
          ended'.2.context.steps = q.steps + news.steps)
      (it.runPiece node s) (it.runPiece node' t) := by
  rw [runPiece_eq, runPiece_eq]
  rcases ends_cases ends with ⟨left, right⟩ | ⟨_, _, left, right, same, alike⟩
  · rw [left, right]
    exact .none
  · rw [left, right]
    obtain ⟨news, before, before'⟩ := alike.since
    refine .some ⟨same, alike.same, news, ?_, ?_, congrArg Past.steps before,
      congrArg Past.steps before'⟩
    · rw [moments_eq left]
      exact congrArg Past.events before
    · rw [moments_eq right]
      exact congrArg Past.events before'

/-- A text that can be read does the same on contexts with the same global variables and
definitions, whatever runs they have served; one that cannot be read leaves them as they are. -/
theorem history_independent (uses : it.Uses (Standard random streams)) (unwatched : it.Unwatched)
    {s t : State σ} (hs : s.Reachable) (ht : t.Reachable)
    (globals : s.context.SameGlobals t.context) (host : s.host = t.host) (source : String) :
    (∀ error, it.parse source = .error error →
      it.run source s = some (.error (.parse error), s) ∧
        it.run source t = some (.error (.parse error), t)) ∧
    ∀ script, it.parse source = .ok script →
      Option.Rel (fun ended ended' => ended.1 = ended'.1 ∧ ended.2.Same ended'.2 ∧
          ended.2.context.steps = ended'.2.context.steps ∧
          (it.moments script.root s).map Moment.event = (it.moments script.root t).map Moment.event)
        (it.run source s) (it.run source t) := by
  refine ⟨fun error unreadable => ?_, fun script readable => ?_⟩
  · simp only [run, unreadable, and_self]
  · have other : script.root.kind ≠ .control := show NodeKind.script ≠ .control by decide
    have mirrors := runNode_mirrors_first uses unwatched (p := ⟨[], 0⟩) (q := ⟨[], 0⟩) (.inr rfl)
      it.fuel other
    simp only [run, readable, runScript]
    rcases ends_cases (runPiece_mirrors (mirrors _ _ (hs.alike ht globals host))) with
      ⟨left, right⟩ | ⟨_, _, left, right, same, after, news, happened, happened', steps, steps'⟩
    · rw [left, right]
      exact .none
    · rw [left, right]
      exact .some ⟨congrArg (Except.mapError Failure.runtime) same, after, steps.trans steps'.symm,
        happened.trans happened'.symm⟩

/-- A script that leaves the else-chain of the global frame open. -/
def untaken : Script :=
  ⟨"!if(0) stop",
    [.control default (.literal default "if") [.literal default "0"]
      (.command (.literal default "stop") [])]⟩

/-- An `else` that comes first in a run does not see the chain that the run before left open. -/
theorem untaken_forgotten :
    let it := Console.interpreter.withLimits ⟨0, 9, 0⟩
    let fresh : State Console.Host := ⟨.initial, Console.start [] 0⟩
    ∃ used script, it.runScript untaken fresh = some (.ok (), used) ∧
      used.context.scopes.top.openChain = some used.context.scopes.top.statements ∧
      it.parse "!else stop" = .ok script ∧
      Option.Rel (fun ended ended' => ended.1 = ended'.1 ∧ ended.2.Same ended'.2 ∧
          ended.2.context.steps = ended'.2.context.steps ∧
          (it.moments script.root fresh).map Moment.event =
            (it.moments script.root used).map Moment.event)
        (it.run "!else stop" fresh) (it.run "!else stop" used) := by
  intro it fresh
  obtain ⟨used, ran, chain, globals, host⟩ : ∃ used, it.runScript untaken fresh = some (.ok (), used) ∧
      used.context.scopes.top.openChain = some used.context.scopes.top.statements ∧
      fresh.context.SameGlobals used.context ∧ fresh.host = used.host :=
    ⟨_, rfl, rfl, ⟨fun _ => rfl, fun _ => rfl⟩, rfl⟩
  obtain ⟨script, readable⟩ : ∃ script, it.parse "!else stop" = .ok script := ⟨_, rfl⟩
  have reachable : fresh.Reachable := .initial _
  have uses : it.Uses (Standard Console.generator Console.streams) := Console.interpreter_uses
  have same := history_independent uses (fun _ _ _ => rfl) reachable
    (.runScript it untaken reachable ran) globals host "!else stop"
  exact ⟨used, script, ran, chain, readable, same.2 script readable⟩

/-- A text that cannot be read starts no run: what is said of the last run is still said of the one
before, which was stopped on one of the contexts. -/
theorem unreadable_starts_nothing :
    let it := Console.interpreter.withLimits ⟨0, 9, 0⟩
    ∃ fresh stopped : State Console.Host, fresh.Reachable ∧ stopped.Reachable ∧
      fresh.context.SameGlobals stopped.context ∧ fresh.host = stopped.host ∧
      ∃ error, it.run "\x7d" fresh = some (.error error, fresh) ∧
        it.run "\x7d" stopped = some (.error error, stopped) ∧
        fresh.context.steps ≠ stopped.context.steps ∧
        fresh.context.isStopped ≠ stopped.context.isStopped := by
  intro it
  let fresh : State Console.Host := ⟨.initial, Console.start [] 0⟩
  let stop : Script := ⟨"stop", [.command (.literal default "stop") []]⟩
  obtain ⟨stopped, ran, globals, host, steps, flow⟩ : ∃ stopped,
      it.runScript stop fresh = some (.ok (), stopped) ∧
      fresh.context.SameGlobals stopped.context ∧ fresh.host = stopped.host ∧
      stopped.context.steps = 2 ∧ stopped.context.isStopped = true :=
    ⟨_, rfl, ⟨fun _ => rfl, fun _ => rfl⟩, rfl, rfl, rfl⟩
  have reachable : fresh.Reachable := .initial _
  refine ⟨fresh, stopped, reachable, .runScript it stop reachable ran, globals, host, _, rfl, rfl, ?_, ?_⟩
  · rw [steps]
    decide
  · rw [flow]
    decide

end Interpreter

end Scriptlet
