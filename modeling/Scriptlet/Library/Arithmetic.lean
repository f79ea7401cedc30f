import Scriptlet.Handler
import Scriptlet.Reading

/-!
# Arithmetic and comparison

Expansions on numbers. If one of the numbers given is a binary64 number, all are read as such.
-/

namespace Scriptlet.Library

variable {σ : Type}

/-- An expansion that only looks at its call. -/
def pureExpansion (answer : Call → Except Fault String) : Callback σ := fun call => do
  let text ← .ofExcept (answer call)
  pure (some text)

/-- Combines the items from the left; there is nothing to combine in an empty list. -/
def reduce {α : Type} (combine : α → α → α) : List α → Option α
  | [] => none
  | first :: rest => some (rest.foldl combine first)

/-- A quotient, a division by zero being a fault of the call. -/
def ofDivision : Except DivisionFault Number → Except Fault Number
  | .ok n => .ok n
  | .error fault => .error (.division fault)

/-- Changes one number. -/
def unary (op : Number → Number) (call : Call) : Except Fault String := do
  call.requireArgs 1
  let n ← Reading.number (← call.arg 0)
  pure (op n).text

/-- Combines all numbers from the left. -/
def fold (op : Number → Number → Number) (call : Call) : Except Fault String := do
  call.requireMinArgs 1
  let numbers ← Reading.numbers call.args
  pure (((reduce op numbers).map Number.text).getD "")

/-- The first number less the sum of the others; a single number with the other sign. -/
def subtractAll : List Number → Number
  | [] => .int 0
  | [n] => n.neg
  | first :: rest => first.sub ((reduce .add rest).getD (.int 0))

/-- Subtracts numbers. -/
def subtract (call : Call) : Except Fault String := do
  call.requireMinArgs 1
  let numbers ← Reading.numbers call.args
  pure (subtractAll numbers).text

/-- The first number divided by the product of the others. -/
def divideAll (op : Number → Number → Except DivisionFault Number) :
    List Number → Except Fault Number
  | [] => .ok (.int 0)
  | first :: rest => ofDivision (op first ((reduce .mul rest).getD (.int 1)))

/-- Divides numbers. -/
def divide (op : Number → Number → Except DivisionFault Number) (call : Call) :
    Except Fault String := do
  call.requireMinArgs 2
  let numbers ← Reading.numbers call.args
  pure (← divideAll op numbers).text

/-- The two numbers of a call that takes two. -/
def twoNumbers (call : Call) : Except Fault (Number × Number) := do
  call.requireArgs 2
  match ← Reading.numbers call.args with
  | [a, b] => pure (a, b)
  | _ => .error (.wrongArgumentCount call.name 2 call.args.length)

/-- The remainder of a division. -/
def modulo (call : Call) : Except Fault String := do
  let (a, b) ← twoNumbers call
  pure (← ofDivision (a.modulo b)).text

/-- The expansions that calculate. -/
def arithmetic : Callbacks σ :=
  .ofList
    [("toint", pureExpansion (unary .toInt)), ("tofloat", pureExpansion (unary .toFloat)),
      ("+", pureExpansion (fold .add)), ("*", pureExpansion (fold .mul)),
      ("-", pureExpansion subtract), ("/", pureExpansion (divide Number.div)),
      ("//", pureExpansion (divide Number.floorDiv)), ("%", pureExpansion modulo)]

/-- Whether two arguments are equal: as numbers if both are numbers, as texts otherwise. -/
def equal (call : Call) : Except Fault Bool := do
  call.requireArgs 2
  match call.args with
  | [a, b] =>
    match Reading.numbers [a, b] with
    | .ok [m, n] => pure (m.same n)
    | _ => pure (a == b)
  | _ => pure false

/-- Compares two numbers as binary64 numbers. -/
def compare (op : Binary64 → Binary64 → Bool) (call : Call) : Except Fault String := do
  let (a, b) ← twoNumbers call
  pure (Reading.ofBool (op a.toBinary64 b.toBinary64))

/-- Whether the first argument is among the others. -/
def isAmong (call : Call) : Except Fault String := do
  call.requireMinArgs 1
  match call.args with
  | item :: items => pure (Reading.ofBool (items.contains item))
  | [] => pure (Reading.ofBool false)

/-- The expansions that compare. -/
def comparison : Callbacks σ :=
  (Callbacks.ofList
    [("eq?", pureExpansion fun call => Reading.ofBool <$> equal call),
      ("neq?", pureExpansion fun call => Reading.ofBool <$> not <$> equal call),
      (">", pureExpansion (compare fun x y => y.lt x)),
      ("<", pureExpansion (compare Binary64.lt)),
      (">=", pureExpansion (compare fun x y => y.le x)),
      ("<=", pureExpansion (compare Binary64.le)),
      ("in?", pureExpansion isAmong)]).addAlias "==" "eq?"

/-- The truth value with the other truth. -/
def negate (call : Call) : Except Fault String := do
  call.requireArgs 1
  pure (Reading.ofBool (!Reading.isTrue (← call.arg 0)))

/-- Combines truth values from the left. -/
def foldTruth (op : Bool → Bool → Bool) (call : Call) : Except Fault String := do
  call.requireMinArgs 1
  pure (Reading.ofBool ((reduce op (call.args.map Reading.isTrue)).getD false))

/-- The expansions on truth values. -/
def logic : Callbacks σ :=
  .ofList
    [("not", pureExpansion negate), ("and", pureExpansion (foldTruth and)),
      ("or", pureExpansion (foldTruth or)), ("xor", pureExpansion (foldTruth xor))]

end Scriptlet.Library
