import Scriptlet.Interpreter.Run

/-!
# Calls in the hands of the host

A handler that acts through its call can only do what an `Action` does. A host may also take the state
of the run into its own hands while it serves a call: it may start a run on it, with an interpreter of
its own, or put another state in its place. Here runs are carried out for such a host, which serves
some calls with any evaluation at all. Without such calls these are the runs of the interpreter
(`runHosted_none`).
-/

namespace Scriptlet

/-- The calls that a host serves with the state of the run in its hands, and what it does there. -/
abbrev HostCalls (σ : Type) : Type :=
  ActiveCall → Option (Evaluation σ (Option String))

namespace Interpreter

variable {σ : Type}

/-- Serves a call in its frame: by the definition, by the host itself, or by a handler. -/
def dispatchHosted (it : Interpreter σ) (calls : HostCalls σ) (run : Node Token → Evaluation σ Unit)
    (expand : Expand σ) (rounds : Nat) (site : CallSite) (definition : Option Definition)
    (call : ActiveCall) : Evaluation σ (Option String) :=
  match definition, calls call with
  | none, some work => do
    Evaluation.notify it.observe (.handler call)
    work
  | _, _ => it.dispatch run expand rounds site definition call

/-- `serve`, with some calls served by the host. -/
def serveHosted (it : Interpreter σ) (calls : HostCalls σ) (run : Node Token → Evaluation σ Unit)
    (expand : Expand σ) (rounds : Nat) (site : CallSite) (name : String) (args : List String) :
    Evaluation σ String :=
  if name = "" then Evaluation.failAt site.location (.emptyCallName site.kind)
  else do
    let context ← Evaluation.context
    if context.isStopped then pure ""
    else if 0 < it.limits.maxCallDepth && it.limits.maxCallDepth ≤ context.scopes.depth then
      Evaluation.failAt site.location (.depthCeiling it.limits.maxCallDepth)
    else
      let call : ActiveCall := ⟨name, site.kind, args, site.location⟩
      let definition := context.definition? site.kind name
      let answer ← Evaluation.inFrame (.ofCall call definition.isSome)
        (it.dispatchHosted calls run expand rounds site definition call)
      pure (answer.getD "")

/-- `call`, with some calls served by the host. -/
def callHosted (it : Interpreter σ) (calls : HostCalls σ) (run : Node Token → Evaluation σ Unit)
    (expand : Expand σ) (rounds : Nat) (site : CallSite) : Evaluation σ String := do
  let named ← site.name.slots expand
  let given ← Word.arguments expand site.args
  it.serveHosted calls run expand rounds site (named.head?.getD "") (named.tail ++ given)

/-- `perform`, with some calls served by the host. -/
def performHosted (it : Interpreter σ) (calls : HostCalls σ) (run : Node Token → Evaluation σ Unit)
    (expand : Expand σ) (rounds : Nat) (node : Node Token) : Evaluation σ Unit :=
  match node with
  | .script body => sequence (fun s => run (.statement s)) body
  | .statement (.block _ body) => sequence (fun s => run (.statement s)) body
  | .statement (.command name args) => do
    let _ ← it.callHosted calls run expand rounds ⟨.command, name, args, none, node, node.start⟩
    pure ()
  | .statement (.control _ name args body) => do
    let _ ← it.callHosted calls run expand rounds ⟨.control, name, args, some body, node, node.start⟩
    pure ()
  | .arguments _ | .word _ => Evaluation.failAt node.start (.notStatement node.kind)

mutual

/-- `runNode`, with some calls served by the host. -/
def runHosted (it : Interpreter σ) (calls : HostCalls σ) :
    (fuel : Nat) → Node Token → Evaluation σ Unit
  | 0, _ => Evaluation.exhausted
  | fuel + 1, node => do
    it.step node.start
    countStatement
    it.performHosted calls (runHosted it calls fuel) (expandHosted it calls fuel) fuel node

/-- `expand`, with some calls served by the host. -/
def expandHosted (it : Interpreter σ) (calls : HostCalls σ) :
    (fuel : Nat) → Token → Word Token → List (Word Token) → Evaluation σ String
  | 0, _, _, _ => Evaluation.exhausted
  | fuel + 1, origin, name, args => do
    it.step origin.start
    it.callHosted calls (runHosted it calls fuel) (expandHosted it calls fuel) fuel
      ⟨.expansion, name, args, none, .word (.substitution origin name args), origin.start⟩

end

section

variable {it : Interpreter σ} {run : Node Token → Evaluation σ Unit} {expand : Expand σ} {rounds : Nat}

/-- A host that serves no call itself leaves them to the definitions and the handlers. -/
theorem callHosted_none (site : CallSite) :
    it.callHosted (fun _ => none) run expand rounds site = it.call run expand rounds site := by
  have dispatches : it.dispatchHosted (fun _ => none) run expand rounds site =
      it.dispatch run expand rounds site := by
    funext definition call
    cases definition <;> rfl
  unfold callHosted call serveHosted serve
  rw [dispatches]

/-- The same, of what a piece of a script says. -/
theorem performHosted_none (node : Node Token) :
    it.performHosted (fun _ => none) run expand rounds node = it.perform run expand rounds node := by
  unfold performHosted
  simp only [callHosted_none]
  rfl

/-- Without calls that the host serves itself, a run is that of the interpreter. -/
theorem runHosted_none (it : Interpreter σ) (fuel : Nat) :
    it.runHosted (fun _ => none) fuel = it.runNode fuel ∧
      it.expandHosted (fun _ => none) fuel = it.expand fuel := by
  induction fuel with
  | zero => exact ⟨rfl, rfl⟩
  | succ fuel ih =>
    obtain ⟨runs, expands⟩ := ih
    refine ⟨funext fun node => ?_, funext fun origin => funext fun name => funext fun args => ?_⟩
    · rw [runHosted, runNode, runs, expands, performHosted_none]
    · rw [expandHosted, Interpreter.expand, runs, expands, callHosted_none]

end

end Interpreter

end Scriptlet
