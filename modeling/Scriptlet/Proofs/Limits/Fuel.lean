import Scriptlet.Proofs.Evaluation.Orderly

/-!
# More fuel

A run that has an end has the same end whatever more fuel it is given, if its handlers are orderly.
The fuel of a run therefore only says how long to look for its end.
-/

namespace Scriptlet

variable {σ : Type}

namespace Evaluation

/-- Whatever end the first evaluation has, the second has it too. -/
def Refines : Relation (Recorded σ) (Recorded σ) := fun _ x y =>
  ∀ s ended, x s = some ended → y s = some ended

namespace Refines

/-- Refinement is handed on through the parts of an evaluation. -/
lemma monadic : Relation.Monadic (Refines (σ := σ)) where
  pure _ _ _ h := h
  raise _ _ _ h := h
  bind := by
    intro α β x y f g hx hf s ended h
    obtain ⟨result, s'⟩ := ended
    rcases bind_cases h with ⟨value, s₁, first, rest⟩ | ⟨error, first, rfl⟩
    · rw [bind_of_ok (hx _ _ first)]
      exact hf value _ _ rest
    · exact bind_of_error (hx _ _ first) g
  context hf s ended h := hf s.context s ended h

/-- Refinement is the same in a frame. -/
lemma inFrame {α : Type} {x y : Evaluation (Recorded σ) α} (frame : Frame) (h : Refines x y) :
    Refines (inFrame frame x) (Evaluation.inFrame frame y) := by
  intro s ended e
  obtain ⟨result, s'⟩ := ended
  obtain ⟨inner, s₁, first, rfl, ⟨value, rfl, rfl⟩ | ⟨error, rfl, rfl⟩⟩ := inFrame_cases e
  · exact inFrame_of_ok (h _ _ first)
  · exact inFrame_of_error (h _ _ first)

/-- An interpreter does the same as itself in every call. -/
lemma framed (it : Interpreter (Recorded σ)) : Relation.Framed Refines Refines it it where
  outside := monadic.toSequential
  inside := monadic.toSequential
  fail fault := monadic.raise (.ofFault fault)
  enter h := h
  notify _ _ _ h := h
  passage _ _ _ h := h

/-- All that a handler can do has the same end with more fuel. -/
lemma acting (allowed : Update → Prop) : Relation.Acting (Refines (σ := σ)) allowed where
  inside := monadic
  update _ _ _ h := h
  read hf s ended h := hf s.host.host s ended h
  write _ _ _ h _ ended e := h _ ended e
  starve _ _ _ h := nomatch h

end Refines

end Evaluation

open Evaluation

namespace Interpreter

variable {it : Interpreter σ}

/-- More rounds, and more fuel for what it runs, change no end of a call. -/
lemma serve_refines (uses : it.Uses fun _ handler => handler.Orderly)
    {run run' : Node Token → Evaluation (Recorded σ) Unit} {expand expand' : Expand (Recorded σ)}
    (runs : ∀ node, Refines (run node) (run' node))
    (expands : ∀ origin name args, Refines (expand origin name args) (expand' origin name args))
    {rounds rounds' : Nat} (le : rounds ≤ rounds') (site : CallSite) (name : String)
    (args : List String) :
    Refines (it.recorded.serve run expand rounds site name args)
      (it.recorded.serve run' expand' rounds' site name args) := by
  have framed := Refines.framed it.recorded
  refine serve_rel framed.outside rfl fun definition => Refines.inFrame _ ?_
  refine dispatch_rel framed runs definition (handlers_rel uses fun handler orderly => ?_)
  refine handle_rel framed ?_
  exact ofAction_rel (Refines.acting _) (runBody_rel framed runs site name)
    (Word.arguments_rel framed.outside expands site.args) le (orderly _)

/-- More fuel changes no end of a run. -/
lemma run_refines (uses : it.Uses fun _ handler => handler.Orderly) (extra fuel : Nat) :
    (∀ node, Refines (it.recorded.runNode fuel node) (it.recorded.runNode (extra + fuel) node)) ∧
      ∀ origin name args, Refines (it.recorded.expand fuel origin name args)
        (it.recorded.expand (extra + fuel) origin name args) := by
  refine run_rel _ _ (Refines.framed it.recorded).outside extra ?_ ?_ ?_ ?_ fuel
  · exact fun location s ended h => h
  · exact fun s ended h => h
  · exact fun fuel runs expands => serve_refines uses runs expands (Nat.le_add_left _ _)
  · exact ⟨fun node s ended h => (nomatch h), fun origin name args s ended h => (nomatch h)⟩

end Interpreter

end Scriptlet
