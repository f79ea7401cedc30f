import Scriptlet.Proofs.Scope.Stack
import Scriptlet.Proofs.Evaluation.Relation

/-!
# Calls that reach a handler

A call is made unless its name is empty, the run was stopped or too many calls are in progress, and
goes to the handlers unless a definition takes its place (`Interpreter.Admits`). Then it does what the
handler does that the chain has for its name, in a frame of its own (`serve_handled`), and fails if
there is none (`serve_unresolved`).
-/

namespace Scriptlet

open Evaluation

variable {σ : Type}

/-- A call of this kind and name is made, and no definition takes its place. -/
structure Interpreter.Admits (it : Interpreter σ) (kind : CallKind) (name : String) (s : State σ) :
    Prop where
  named : name ≠ ""
  undefined : s.context.definition? kind name = none
  goes_on : s.context.isStopped = false
  room : it.limits.maxCallDepth = 0 ∨ s.context.scopes.depth < it.limits.maxCallDepth

namespace Interpreter

variable {it : Interpreter σ} {run : Node Token → Evaluation σ Unit} {expand : Expand σ} {rounds : Nat}
  {site : CallSite} {name : String} {args : List String} {s : State σ}

/-- The call is dispatched in a frame of its own, which owns no variables. -/
lemma serve_admitted (admits : it.Admits site.kind name s) :
    let call : ActiveCall := ⟨name, site.kind, args, site.location⟩
    it.serve run expand rounds site name args s =
      (inFrame (.ofCall call false) (it.dispatch run expand rounds site none call) >>= fun answer =>
        pure (answer.getD "")) s := by
  have ceiling : ¬ (decide (0 < it.limits.maxCallDepth) &&
      decide (it.limits.maxCallDepth ≤ s.context.scopes.depth)) = true := by
    rw [Bool.and_eq_true, decide_eq_true_eq, decide_eq_true_eq]
    have room := admits.room
    omega
  rw [serve, if_neg admits.named]
  show (if s.context.isStopped = true then _ else _ : Evaluation σ String) s = _
  rw [admits.goes_on, if_neg Bool.false_ne_true, if_neg ceiling, admits.undefined]
  rfl

/-- The handler that the chain has for the name serves the call. -/
lemma serve_handled (admits : it.Admits site.kind name s) {handler : Handler σ}
    (found : Chain.handlerFor? (it.registry.chain site.kind) name = some handler) :
    let call : ActiveCall := ⟨name, site.kind, args, site.location⟩
    it.serve run expand rounds site name args s =
      (inFrame (.ofCall call false) (it.handle run expand rounds site call handler) >>= fun answer =>
        pure (answer.getD "")) s := by
  intro call
  have dispatched : it.dispatch run expand rounds site none call =
      it.handle run expand rounds site call handler := by
    rw [dispatch, found]
  rw [serve_admitted admits, dispatched]

/-- A call that fails in its frame fails, and its error is placed at the call. -/
lemma serve_fails (admits : it.Admits site.kind name s) {fault : Fault} {host : σ} :
    let call : ActiveCall := ⟨name, site.kind, args, site.location⟩
    let pushed := withScopes (·.push (.ofCall call false)) s
    it.dispatch run expand rounds site none call pushed =
      some (.error (.ofFault fault), { pushed with host := host }) →
    it.serve run expand rounds site name args s =
      some (.error ⟨fault, some site.location, s.context.scopes.backtrace ++ [call]⟩,
        { s with host := host }) := by
  intro call pushed failed
  rw [serve_admitted admits, bind_of_error (inFrame_of_error failed)]
  have calls : pushed.context.scopes.backtrace = s.context.scopes.backtrace ++ [call] :=
    ScopeStack.backtrace_push _ _
  rw [← calls]
  rfl

/-- Without a handler for the name the call fails, and nothing is changed. -/
lemma serve_unresolved (admits : it.Admits site.kind name s)
    (missing : Chain.handlerFor? (it.registry.chain site.kind) name = none) :
    it.serve run expand rounds site name args s =
      some (.error ⟨.noCall site.kind name, some site.location,
        s.context.scopes.backtrace ++ [⟨name, site.kind, args, site.location⟩]⟩, s) := by
  apply serve_fails admits
  rw [dispatch, missing]
  rfl

end Interpreter

end Scriptlet
