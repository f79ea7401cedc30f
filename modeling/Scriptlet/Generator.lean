import Scriptlet.Library.Random

/-!
# A generator

A linear congruential generator of 64 bits, for hosts that have no other. A host that wants the same
choices again starts from the same seed.
-/

namespace Scriptlet

/-- A linear congruential generator of 64 bits. -/
structure Generator where
  state : UInt64
  deriving DecidableEq, Repr, Inhabited

namespace Generator

/-- The generator in its next state. -/
def next (g : Generator) : Generator :=
  ⟨g.state * 6364136223846793005 + 1442695040888963407⟩

/-- The generator that starts from a seed. -/
def ofSeed (seed : Nat) : Generator :=
  (Generator.mk (.ofNat seed)).next.next

/-- A number of 53 bits. -/
def bits (g : Generator) : Nat × Generator :=
  let g := g.next
  ((g.state >>> 11).toNat, g)

/-- A number below a bound, which must not be zero for that. -/
def below (g : Generator) (bound : Nat) : Nat × Generator :=
  let (n, g) := g.bits
  (n % bound, g)

/-- Deals an item a random key. -/
def deal : List (Nat × String) × Generator → String → List (Nat × String) × Generator
  | (dealt, g), item =>
    let (key, g) := g.bits
    ((key, item) :: dealt, g)

/-- A shuffle puts the items into the order of keys that are dealt at random. -/
instance : RandomSource Generator where
  choose items g :=
    let (i, g) := g.below items.length
    (items[i]?, g)
  shuffle items g :=
    let (dealt, g) := items.foldl deal ([], g)
    ((dealt.mergeSort fun a b => a.1 ≤ b.1).map Prod.snd, g)
  fraction g :=
    let (n, g) := g.bits
    (.ofQuotient n (Nat.pow 2 53), g)

end Generator

end Scriptlet
