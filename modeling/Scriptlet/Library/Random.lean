import Scriptlet.Handler
import Scriptlet.Library.Slot
import Scriptlet.Reading

/-!
# Random choices

The expansions `select`, `shuffle` and `uniform`, on any generator that the host keeps.
-/

namespace Scriptlet

/-- A generator of random choices, as a host keeps it. Which choices it makes is up to it. -/
class RandomSource (γ : Type) where
  /-- One of the items, if there are any. -/
  choose : List String → γ → Option String × γ
  /-- The items in another order. -/
  shuffle : List String → γ → List String × γ
  /-- A binary64 number from zero up to, but not including, one. -/
  fraction : γ → Binary64 × γ

namespace Library

variable {σ γ : Type} [RandomSource γ]

/-- One of the arguments. -/
def select (slot : Slot σ γ) : Callback σ := fun call => do
  .ofExcept (call.requireMinArgs 1)
  slot.use (RandomSource.choose call.args)

/-- The arguments in another order. -/
def shuffle (slot : Slot σ γ) : Callback σ := fun call => do
  let items ← slot.use (RandomSource.shuffle call.args)
  pure (some (Text.unwords items))

/-- A number between two bounds, in either order. -/
def uniform (slot : Slot σ γ) : Callback σ := fun call => do
  .ofExcept (call.requireArgs 2)
  let lower ← .ofExcept (call.arg 0 >>= Reading.number)
  let upper ← .ofExcept (call.arg 1 >>= Reading.number)
  let fraction ← slot.use RandomSource.fraction
  let lower := lower.toBinary64
  let width := upper.toBinary64.sub lower
  pure (some (Number.float (lower.add (width.mul fraction))).text)

/-- The handler of random choices. -/
def random (slot : Slot σ γ) : Handler σ where
  answersTo name := ["select", "shuffle", "uniform"].contains name
  invoke call :=
    match call.name with
    | "select" => select slot call
    | "shuffle" => shuffle slot call
    | "uniform" => uniform slot call
    | other => .fail (.notInFamily "random" other)

end Library

end Scriptlet
