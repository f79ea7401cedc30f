import Scriptlet.Library.Base
import Scriptlet.Library.Stdio
import Scriptlet.Proofs.Checked.Bytes
import Scriptlet.Proofs.Checked.Numbers
import Scriptlet.Proofs.Shape.Loose

/-!
# The base library with checks

The callbacks that index their arguments or numbers, cut a list or a text, or take steps on
integers, with a check wherever they do. What is done where a check fails is left open: it is
`Failing`.
-/

namespace Scriptlet

/-- The first so many items of a list, which it must have. -/
def sliceTo? {α : Type} (stop : Nat) (items : List α) : Option (List α) :=
  if stop ≤ items.length then some (items.take stop) else none

/-- An answer or a fault, or nothing where a check fails. -/
def Guarded (α : Type) : Type :=
  Option (Except Fault α)

namespace Guarded

variable {α β : Type}

/-- First one computation, then, unless it failed, the one chosen by its answer. -/
def andThen (x : Guarded α) (next : α → Guarded β) : Guarded β :=
  match x with
  | none => none
  | some (.error fault) => some (.error fault)
  | some (.ok answer) => next answer

instance : Monad Guarded where
  pure answer := some (.ok answer)
  bind := andThen

/-- What needs no check. -/
def ofExcept (x : Except Fault α) : Guarded α :=
  some x

/-- What must be there. -/
def given : Option α → Guarded α
  | some answer => some (.ok answer)
  | none => none

end Guarded

/-- What is done where a check fails. -/
abbrev Failing (σ : Type) : Type 1 :=
  (α : Type) → Action σ α

/-- What must be there, or else the check fails. -/
def Failing.given {σ α : Type} (failing : Failing σ) : Option α → Action σ α
  | some answer => .done answer
  | none => failing α

namespace Library.Checked

section Expansions

open Guarded

/-- The numbers at the first two places. -/
def firstTwo (numbers : List Number) : Guarded (Number × Number) := do
  let a ← given numbers[0]?
  let b ← given numbers[1]?
  pure (a, b)

/-- Subtracts numbers. -/
def subtract (call : Call) : Guarded String := do
  ofExcept (call.requireMinArgs 1)
  match ← ofExcept (Reading.numbers call.args) with
  | [n] =>
    let n ← given n.neg?
    pure n.text
  | numbers => pure (subtractAll numbers).text

/-- Divides the first number by the product of the others. -/
def divide (op : Number → Number → Option (Except DivisionFault Number)) (call : Call) :
    Guarded String := do
  ofExcept (call.requireMinArgs 2)
  let numbers ← ofExcept (Reading.numbers call.args)
  let others ← given (sliceFrom? 1 numbers)
  let first ← given numbers[0]?
  let quotient ← given (op first ((reduce .mul others).getD (.int 1)))
  pure (← ofExcept (ofDivision quotient)).text

/-- The remainder of a division. -/
def modulo (call : Call) : Guarded String := do
  ofExcept (call.requireArgs 2)
  let numbers ← ofExcept (Reading.numbers call.args)
  let (a, b) ← firstTwo numbers
  let remainder ← given (a.modulo? b)
  pure (← ofExcept (ofDivision remainder)).text

/-- Whether two arguments are equal. -/
def equal (call : Call) : Guarded Bool := do
  ofExcept (call.requireArgs 2)
  match Reading.numbers call.args with
  | .ok numbers =>
    let (a, b) ← firstTwo numbers
    pure (a.same b)
  | .error _ =>
    let a ← given call.args[0]?
    let b ← given call.args[1]?
    pure (a == b)

/-- Compares two numbers. -/
def compare (op : Binary64 → Binary64 → Bool) (call : Call) : Guarded String := do
  ofExcept (call.requireArgs 2)
  let numbers ← ofExcept (Reading.numbers call.args)
  let (a, b) ← firstTwo numbers
  pure (Reading.ofBool (op a.toBinary64 b.toBinary64))

/-- Whether the first argument is among the others. -/
def isAmong (call : Call) : Guarded String := do
  ofExcept (call.requireMinArgs 1)
  let needle ← given (sliceTo? 1 call.args)
  let haystack ← given (sliceFrom? 1 call.args)
  let item ← given needle[0]?
  pure (Reading.ofBool (haystack.contains item))

/-- Everything behind the first word, cut off where the first blank starts. -/
def tail (call : Call) : Guarded String := do
  ofExcept (call.requireMinArgs 1)
  let trimmed := Text.dropBlanks (Text.unwords call.args).toList
  match Bytes.find? Text.isBlank trimmed with
  | some start =>
    let rest ← given (Bytes.behind? start trimmed)
    pure (.ofList (Text.dropBlanks rest))
  | none => pure ""

/-- The range between two numbers, counted up. -/
def range (call : Call) : Guarded String := do
  ofExcept (call.requireMinArgs 2)
  let bounds ← given (sliceTo? 2 call.args)
  let numbers ← ofExcept (Reading.numbers bounds)
  let (a, b) ← firstTwo numbers
  let lower := a.truncate
  let upper := b.truncate
  if maxRangeItems < (Int64.ofIntClamp (upper.toInt - lower.toInt)).toInt then
    ofExcept (.error (.rangeCeiling maxRangeItems))
  else
    let items ← given (Steps.range? maxRangeItems.toNat lower upper)
    pure (Text.unwords (items.map fun n => toString n.toInt))

end Expansions

section Callbacks

variable {σ γ : Type} [RandomSource γ] (failing : Failing σ)

/-- An expansion that only looks at its call. -/
def pureExpansion (answer : Call → Guarded String) : Callback σ := fun call => do
  let answer ← failing.given (answer call)
  let text ← .ofExcept answer
  pure (some text)

/-- Gives a variable a value. -/
def set : Callback σ := fun call => do
  .ofExcept (call.requireMinArgs 1)
  let values ← failing.given (sliceFrom? 1 call.args)
  let name ← failing.given call.args[0]?
  .change (.set name (Text.unwords values))
  pure none

/-- Runs the body for each integer from the first up to the second, at most so many. -/
def repeatSteps (stop : Int64) : (most : Nat) → (start : Int64) → Action σ Unit
  | 0, start => if start < stop then failing Unit else pure ()
  | most + 1, start =>
    if start < stop then do
      let next ← failing.given (Steps.add? start 1)
      .body
      if ← .interrupted then pure () else repeatSteps stop most next
    else pure ()

/-- Runs the body as often as the argument says. -/
def repeatTimes : Callback σ := fun call => do
  .ofExcept (call.requireArgs 1)
  let times ← .ofExcept (call.arg 0 >>= Reading.integer)
  repeatSteps failing (max times 0) times.toInt.toNat 0
  pure none

/-- Runs the body once for each argument behind the word `in`. -/
def forIn : Callback σ := fun call => do
  .ofExcept (call.requireMinArgs 2)
  let word ← failing.given call.args[1]?
  if word ≠ "in" then
    let word ← failing.given call.args[1]?
    .fail (.loopWithoutIn word)
  else
    let name ← failing.given call.args[0]?
    let items ← failing.given (sliceFrom? 2 call.args)
    forItems name items
    .change (.unset name)
    pure none

/-- Runs the body as long as the argument is true. -/
def whileTrue : Callback σ := fun call => do
  .ofExcept (call.requireArgs 1)
  let condition ← failing.given call.args[0]?
  .rounds fun rounds => whileRounds rounds condition
  pure none

/-- Defines a call. -/
def define : Callback σ := fun call => do
  .ofExcept (call.requireMinArgs 1)
  match call.body with
  | none => .fail .definitionWithoutBody
  | some body =>
    let name ← failing.given call.args[0]?
    let params ← failing.given (sliceFrom? 1 call.args)
    let definition ← .ofExcept (definitionOf name params body)
    .change (.define definition)
    pure none

/-- Reads a line into a variable. -/
def input (slot : Slot σ Streams) : Callback σ := fun call => do
  .ofExcept (call.requireArgs 1)
  let result ← slot.use Streams.readLine
  let line ← .ofExcept result
  let name ← failing.given call.args[0]?
  .change (.set name (Streams.dropLineEnd line))
  pure none

/-- The commands. -/
def commands : Callbacks σ :=
  Library.commands.addCall "set" (set failing)

/-- The control calls. -/
def controls : Callbacks σ :=
  (((Library.controls.addCall "repeat" (repeatTimes failing)).addCall "for" (forIn failing)).addCall
    "while" (whileTrue failing)).addCall "def" (define failing)

/-- The expansions that calculate. -/
def arithmetic : Callbacks σ :=
  (((Library.arithmetic.addCall "-" (pureExpansion failing subtract)).addCall "/"
    (pureExpansion failing (divide fun a b => some (a.div b)))).addCall "//"
    (pureExpansion failing (divide Number.floorDiv?))).addCall "%" (pureExpansion failing modulo)

/-- The expansions that compare. -/
def comparison : Callbacks σ :=
  ((((((Library.comparison.addCall "eq?"
    (pureExpansion failing fun call => Reading.ofBool <$> equal call)).addCall "neq?"
    (pureExpansion failing fun call => Reading.ofBool <$> not <$> equal call)).addCall ">"
    (pureExpansion failing (compare fun x y => y.lt x))).addCall "<"
    (pureExpansion failing (compare Binary64.lt))).addCall ">="
    (pureExpansion failing (compare fun x y => y.le x))).addCall "<="
    (pureExpansion failing (compare Binary64.le))).addCall "in?" (pureExpansion failing isAmong)

/-- The expansions on texts and vectors. -/
def vectors : Callbacks σ :=
  (Library.vectors.addCall "vtail" (pureExpansion failing tail)).addCall "rangev"
    (pureExpansion failing range)

/-- The handler of printing and reading. -/
def stdio (slot : Slot σ Streams) : Handler σ where
  answersTo name := ["print", "input"].contains name
  invoke call :=
    match call.name with
    | "print" => print slot call
    | "input" => input failing slot call
    | other => .fail (.notInFamily "stdio" other)

/-- Adds the base library to an interpreter. -/
def addBase (random : Slot σ γ) (it : Interpreter σ) : Interpreter σ :=
  (it.addInitializer bindTruth)
    |>.addHandler .command "builtin" (commands failing).toHandler
    |>.addHandler .control "builtin" (controls failing).toHandler
    |>.addHandler .expansion "arithmetic" (arithmetic failing).toHandler
    |>.addHandler .expansion "comparison" (comparison failing).toHandler
    |>.addHandler .expansion "logic" logic.toHandler
    |>.addHandler .expansion "string" (vectors failing).toHandler
    |>.addHandler .expansion "random" (Library.random random)

end Callbacks

end Library.Checked

end Scriptlet
