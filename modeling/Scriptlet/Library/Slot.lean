import Scriptlet.Action

/-!
# Parts of a host's state

A family of calls that needs state of its own finds it in a slot of the host's state.
-/

namespace Scriptlet

/-- A part of a state that can be read and replaced. -/
structure Slot (σ τ : Type) where
  get : σ → τ
  set : τ → σ → σ

namespace Slot

variable {σ τ ρ : Type}

/-- The whole state as a part of itself. -/
def whole : Slot σ σ :=
  ⟨id, fun part _ => part⟩

/-- Uses the part: the answer, and the part as it is left. -/
def use (slot : Slot σ τ) (f : τ → ρ × τ) : Action σ ρ := do
  let host ← .host
  let (answer, part) := f (slot.get host)
  .modifyHost (slot.set part)
  pure answer

end Slot

end Scriptlet
