import Scriptlet.Proofs.Evaluation.Orderly

/-!
# Frames before and after a run

What holds between the frames before and after each thing that a run does to them, and is handed on
from one thing to the next, holds between the frames before and after the run (`run_bridges`).
-/

namespace Scriptlet

variable {σ α β : Type}

/-- The relation holds between the frames before and after whatever a run does to them, and is
handed on. -/
structure ScopeStack.Bridging (rel : ScopeStack → ScopeStack → Prop) : Prop where
  refl (s : ScopeStack) : rel s s
  trans {s s₁ s' : ScopeStack} : rel s s₁ → rel s₁ s' → rel s s'
  push (s : ScopeStack) (call : ActiveCall) (owns : Bool) : rel s (s.push (.ofCall call owns))
  pop (s : ScopeStack) : rel s s.pop
  countStatement (s : ScopeStack) : rel s (s.modifyTop Frame.countStatement)
  update (c : Context) (change : Update) : rel c.scopes (c.update change).scopes
  passage {change : Context → Context} :
    Evaluation.Passage change → ∀ c : Context, rel c.scopes (change c).scopes

namespace Evaluation

variable {rel : ScopeStack → ScopeStack → Prop}

/-- However the evaluation ends, the relation holds between the frames before and after it. -/
def Bridges (rel : ScopeStack → ScopeStack → Prop) (x : Evaluation σ α) : Prop :=
  ∀ s result s', x s = some (result, s') → rel s.context.scopes s'.context.scopes

/-- The relation holds between the frames before and after the first of two evaluations. -/
def FirstBridges (rel : ScopeStack → ScopeStack → Prop) : Relation σ σ :=
  fun _ x _ => Bridges rel x

/-- A change that the relation allows is a bridge. -/
lemma Bridges.modify {change : Context → Context} (moves : ∀ c, rel c.scopes (change c).scopes) :
    Bridges rel (Evaluation.modify change : Evaluation σ Unit) := by
  intro s result s' e
  cases e
  exact moves s.context

/-- To try an evaluation is a bridge if it is one. -/
lemma Bridges.attempt {x : Evaluation σ α} (h : Bridges rel x) :
    Bridges rel (Evaluation.attempt x) := by
  intro s result s' e
  obtain ⟨inner, ended, -⟩ := attempt_cases e
  exact h _ _ _ ended

end Evaluation

namespace ScopeStack.Bridging

open Evaluation

variable {rel : ScopeStack → ScopeStack → Prop}

/-- Two bridges in turn are one. -/
lemma bind (h : Bridging rel) {x : Evaluation σ α} {f : α → Evaluation σ β}
    (hx : Bridges rel x) (hf : ∀ value, Bridges rel (f value)) : Bridges rel (x >>= f) := by
  intro s result s' e
  rcases bind_cases e with ⟨value, s₁, first, rest⟩ | ⟨error, first, -⟩
  · exact h.trans (hx _ _ _ first) (hf value _ _ _ rest)
  · exact hx _ _ _ first

/-- Values and errors are bridges, and bridges can be put in turn. -/
lemma monadic (h : Bridging rel) : Relation.Monadic (FirstBridges rel : Relation σ σ) where
  pure _ _ _ _ e := by
    cases e
    exact h.refl _
  raise _ _ _ _ e := by
    cases e
    exact h.refl _
  bind := h.bind
  context hf s := hf s.context s

/-- What an interpreter does around a call is a bridge. -/
lemma framed (h : Bridging rel) (it : Interpreter σ) :
    Relation.Framed (FirstBridges rel) (FirstBridges rel) it it where
  outside := h.monadic.toSequential
  inside := h.monadic.toSequential
  fail fault := h.monadic.raise (.ofFault fault)
  enter started := started
  notify _ _ _ _ e := by
    cases e
    exact h.refl _
  passage passage := Bridges.modify (h.passage passage)

/-- A call is a bridge if its body is. -/
lemma inFrame (h : Bridging rel) {x y : Evaluation σ α} (hx : FirstBridges rel x y)
    (call : ActiveCall) (owns : Bool) :
    FirstBridges rel (inFrame (.ofCall call owns) x) (inFrame (.ofCall call owns) y) := by
  intro s result s' e
  obtain ⟨inner, s₁, ran, rfl, -⟩ := inFrame_cases e
  exact h.trans (h.trans (h.push _ call owns) (hx _ _ _ ran)) (h.pop _)

/-- What a handler does beside changing the context are evaluations. -/
lemma ofAction (h : Bridging rel) {body : Evaluation σ Unit}
    {arguments : Evaluation σ (List String)}
    (bodies : Bridges rel body) (rereads : Bridges rel arguments) (rounds : Nat)
    (action : Action σ α) :
    FirstBridges rel (ofAction body arguments rounds action)
      (ofAction body arguments rounds action) := by
  induction action with
  | done answer => exact h.monadic.pure answer
  | raise error => exact h.monadic.raise error
  | inspect rest ih => exact fun s => ih s.context s
  | update change rest ih =>
    exact h.bind (Bridges.modify fun c => h.update c change) fun _ => ih
  | readHost rest ih => exact fun s => ih s.host s
  | writeHost host rest ih => exact fun s => ih ⟨s.context, host⟩
  | runBody rest ih => exact h.bind bodies.attempt fun result => ih (error? result)
  | rereadArgs rest ih => exact h.bind rereads.attempt ih
  | rounds rest ih => exact ih rounds
  | exhausted => exact fun _ _ _ e => nomatch e

/-- What holds across whatever a run does to the frames holds across the run. -/
lemma run_bridges (h : Bridging rel) (it : Interpreter σ) (fuel : Nat) :
    (∀ node, Bridges rel (it.runNode fuel node)) ∧
      ∀ origin name args, Bridges rel (it.expand fuel origin name args) := by
  have framed := h.framed it
  have all := Interpreter.run_rel it it framed.outside 0 ?_ ?_ ?_ ?_ fuel
  · rwa [Nat.zero_add] at all
  · exact Interpreter.step_rel framed.outside rfl (Bridges.modify fun c => h.refl _) framed.notify
  · exact Bridges.modify fun c => h.countStatement _
  · intro fuel runs expands site name args
    rw [Nat.zero_add] at runs expands ⊢
    refine Interpreter.serve_rel framed.outside rfl fun definition => h.inFrame ?_ _ _
    have any : it.Uses fun _ _ => True := fun _ _ _ => trivial
    refine Interpreter.dispatch_rel framed runs definition
      (Interpreter.handlers_self any fun handler _ => ?_)
    have bodies := Interpreter.runBody_rel framed runs site name
    have rereads := Word.arguments_rel framed.outside expands site.args
    exact Interpreter.handle_rel framed (h.ofAction bodies rereads _ _)
  · exact ⟨fun _ _ _ _ e => (nomatch e), fun _ _ _ _ _ _ e => (nomatch e)⟩

end ScopeStack.Bridging

end Scriptlet
