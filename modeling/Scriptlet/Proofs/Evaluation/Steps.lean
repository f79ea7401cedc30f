import Mathlib.Logic.Relation
import Scriptlet.Proofs.Evaluation.Relation

/-!
# The steps of a handler

`Action.Step` is one step of what a handler does, together with the state in which it does it. To
carry an action out is to make its steps until it answers or fails (`ofAction_eq_some_iff`), so what
every step keeps is kept by the whole action, and what holds in every state on the way is what the
handler can see.
-/

namespace Scriptlet

variable {σ α : Type} {body : Evaluation σ Unit} {arguments : Evaluation σ (List String)}
  {rounds : Nat}

open Evaluation

namespace Action

/-- The action that has nothing left but this result. -/
def ofResult : Except RuntimeError α → Action σ α
  | .ok answer => done answer
  | .error error => raise error

/-- From an action and a state to what is left of the action and the state it goes on in. -/
inductive Step (body : Evaluation σ Unit) (arguments : Evaluation σ (List String)) (rounds : Nat) :
    Action σ α × State σ → Action σ α × State σ → Prop
  | inspect (rest : Context → Action σ α) (s : State σ) :
    Step body arguments rounds (.inspect rest, s) (rest s.context, s)
  | update (change : Update) (rest : Action σ α) (s : State σ) :
    Step body arguments rounds (.update change rest, s)
      (rest, { s with context := s.context.update change })
  | readHost (rest : σ → Action σ α) (s : State σ) :
    Step body arguments rounds (.readHost rest, s) (rest s.host, s)
  | writeHost (host : σ) (rest : Action σ α) (s : State σ) :
    Step body arguments rounds (.writeHost host rest, s) (rest, { s with host := host })
  | runBody (rest : Option RuntimeError → Action σ α) {s s' : State σ}
    {result : Except RuntimeError Unit} :
    body s = some (result, s') →
    Step body arguments rounds (.runBody rest, s) (rest (error? result), s')
  | rereadArgs (rest : Except RuntimeError (List String) → Action σ α) {s s' : State σ}
    {result : Except RuntimeError (List String)} :
    arguments s = some (result, s') →
    Step body arguments rounds (.rereadArgs rest, s) (rest result, s')
  | rounds (rest : Nat → Action σ α) (s : State σ) :
    Step body arguments rounds (.rounds rest, s) (rest rounds, s)

/-- Any number of steps. -/
abbrev Steps (body : Evaluation σ Unit) (arguments : Evaluation σ (List String)) (rounds : Nat) :
    Action σ α × State σ → Action σ α × State σ → Prop :=
  Relation.ReflTransGen (Step body arguments rounds)

end Action

namespace Evaluation

/-- An action that ends has made its steps. -/
lemma steps_of_ofAction {action : Action σ α} {s s' : State σ} {result : Except RuntimeError α}
    (h : ofAction body arguments rounds action s = some (result, s')) :
    Action.Steps body arguments rounds (action, s) (.ofResult result, s') := by
  induction action generalizing s with
  | done answer =>
    cases h
    exact .refl
  | raise error =>
    cases h
    exact .refl
  | inspect rest ih => exact .head (.inspect rest s) (ih s.context h)
  | update change rest ih => exact .head (.update change rest s) (ih h)
  | readHost rest ih => exact .head (.readHost rest s) (ih s.host h)
  | writeHost host rest ih => exact .head (.writeHost host rest s) (ih h)
  | runBody rest ih =>
    obtain ⟨inner, s₁, ran, left⟩ := attempt_bind_eq_some.1 h
    exact .head (.runBody rest ran) (ih _ left)
  | rereadArgs rest ih =>
    obtain ⟨inner, s₁, reread, left⟩ := attempt_bind_eq_some.1 h
    exact .head (.rereadArgs rest reread) (ih _ left)
  | rounds rest ih => exact .head (.rounds rest s) (ih rounds h)
  | exhausted => cases h

/-- A step does not change how the action ends. -/
lemma ofAction_of_step {first next : Action σ α × State σ}
    (step : Action.Step body arguments rounds first next) {ended : Except RuntimeError α × State σ}
    (h : ofAction body arguments rounds next.1 next.2 = some ended) :
    ofAction body arguments rounds first.1 first.2 = some ended := by
  cases step with
  | runBody rest ran => exact attempt_bind_eq_some.2 ⟨_, _, ran, h⟩
  | rereadArgs rest reread => exact attempt_bind_eq_some.2 ⟨_, _, reread, h⟩
  | _ => exact h

/-- Nor do any number of steps. -/
lemma ofAction_of_steps {first last : Action σ α × State σ}
    (steps : Action.Steps body arguments rounds first last)
    {ended : Except RuntimeError α × State σ}
    (h : ofAction body arguments rounds last.1 last.2 = some ended) :
    ofAction body arguments rounds first.1 first.2 = some ended := by
  induction steps with
  | refl => exact h
  | tail _ step ih => exact ih (ofAction_of_step step h)

/-- An action ends with a result if its steps lead there. -/
theorem ofAction_eq_some_iff {action : Action σ α} {s s' : State σ}
    {result : Except RuntimeError α} :
    ofAction body arguments rounds action s = some (result, s') ↔
      Action.Steps body arguments rounds (action, s) (.ofResult result, s') := by
  constructor
  · exact steps_of_ofAction
  · intro steps
    refine ofAction_of_steps steps ?_
    cases result with
    | ok answer => rfl
    | error error => rfl

end Evaluation

end Scriptlet
