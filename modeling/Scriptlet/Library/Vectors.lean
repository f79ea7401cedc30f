import Scriptlet.Library.Arithmetic

/-!
# Texts and vectors

A vector is a text seen as the list of its words.
-/

namespace Scriptlet.Library

variable {σ : Type}

/-- All arguments put together, with nothing between them. -/
def concat (call : Call) : Except Fault String :=
  .ok (String.join call.args)

/-- Whether no argument has a word. -/
def isEmptyVector (call : Call) : Except Fault String := do
  call.requireMinArgs 1
  pure (Reading.ofBool (call.args.all Text.isAllBlank))

/-- The first word. -/
def head (call : Call) : Except Fault String := do
  call.requireMinArgs 1
  match (Text.words (Text.unwords call.args)).head? with
  | some word => pure word
  | none => .error .emptyVector

/-- Everything behind the first word, its spacing kept. -/
def tail (call : Call) : Except Fault String := do
  call.requireMinArgs 1
  pure (Text.dropWord (Text.unwords call.args))

/-- The most integers that a range may have. -/
def maxRangeItems : Int := 100000

/-- The integers from the first bound up to, but not including, the second. -/
def rangeItems (lower upper : Int) : List String :=
  (List.range (upper - lower).toNat).map fun (i : Nat) => toString (lower + i)

/-- The range between two numbers, each cut off to an integer. -/
def range (call : Call) : Except Fault String := do
  call.requireMinArgs 2
  match ← Reading.numbers (call.args.take 2) with
  | [a, b] =>
    let lower := a.truncate.toInt
    let upper := b.truncate.toInt
    if maxRangeItems < upper - lower then .error (.rangeCeiling maxRangeItems)
    else pure (Text.unwords (rangeItems lower upper))
  | _ => pure ""

/-- The expansions on texts and vectors. -/
def vectors : Callbacks σ :=
  (Callbacks.ofList
    [("cat", pureExpansion concat), ("vempty?", pureExpansion isEmptyVector),
      ("vhead", pureExpansion head), ("vtail", pureExpansion tail),
      ("rangev", pureExpansion range)]).addAlias "concat" "cat"

end Scriptlet.Library
