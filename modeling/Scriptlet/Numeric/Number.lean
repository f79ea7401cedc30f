import Scriptlet.Numeric.Shortest
import Scriptlet.Text.Blank

/-!
# Numbers of scripts

A number is an integer of 64 bits or a binary64 number. Integer arithmetic is exact where the result
is an integer of 64 bits, and goes on with binary64 numbers where it is not.
-/

namespace Scriptlet

/-- A number of a script. -/
inductive Number where
  | int (value : Int64)
  | float (value : Binary64)
  deriving DecidableEq, Repr

/-- Why a division has no result. -/
inductive DivisionFault where
  | divisionByZero
  | moduloByZero
  deriving DecidableEq, Repr

/-- The fault in words. -/
def DivisionFault.message : DivisionFault → String
  | divisionByZero => "division by zero"
  | moduloByZero => "modulo by zero"

namespace Number

/-- The smallest integer of 64 bits. -/
def minInt : Int := -0x8000000000000000

/-- The largest integer of 64 bits. -/
def maxInt : Int := 0x7FFFFFFFFFFFFFFF

instance : Inhabited Number := ⟨.int 0⟩

/-- The integer as a number of 64 bits, if it is one. -/
def ofInt? (n : Int) : Option Number :=
  if minInt ≤ n && n ≤ maxInt then some (.int (.ofInt n)) else none

/-- The integer as a number, rounded to a binary64 number if it has more than 64 bits. -/
def ofInt (n : Int) : Number :=
  (ofInt? n).getD (.float (.ofInt n))

/-- The nearest binary64 number. -/
def toBinary64 : Number → Binary64
  | int n => .ofInt n.toInt
  | float x => x

/-- Whether the number is a binary64 number. -/
def isFloat : Number → Bool
  | int _ => false
  | float _ => true

/-- The number as a binary64 number. -/
def toFloat (n : Number) : Number :=
  .float n.toBinary64

/-- The whole part, cut off at the bounds of an integer of 64 bits. -/
def truncate : Number → Int64
  | int n => n
  | float x => .ofInt (x.truncate minInt maxInt)

/-- The number as an integer of 64 bits. -/
def toInt (n : Number) : Number :=
  .int n.truncate

/-- Combines two numbers: exactly if both are integers and the result is one too, otherwise as
binary64 numbers. -/
def combine (exact : Int → Int → Int) (rounded : Binary64 → Binary64 → Binary64)
    (a b : Number) : Number :=
  match a, b with
  | int m, int n =>
    match ofInt? (exact m.toInt n.toInt) with
    | some result => result
    | none => .float (rounded a.toBinary64 b.toBinary64)
  | _, _ => .float (rounded a.toBinary64 b.toBinary64)

/-- The number with the other sign. -/
def neg : Number → Number
  | int n => (ofInt? (-n.toInt)).getD (.float (Binary64.ofInt n.toInt).neg)
  | float x => .float x.neg

/-- The sum. -/
def add : Number → Number → Number :=
  combine (· + ·) .add

/-- The difference. -/
def sub : Number → Number → Number :=
  combine (· - ·) .sub

/-- The product. -/
def mul : Number → Number → Number :=
  combine (· * ·) .mul

/-- The quotient, always a binary64 number. -/
def div (a b : Number) : Except DivisionFault Number :=
  if b.toBinary64.isZero then .error .divisionByZero
  else .ok (.float (a.toBinary64.div b.toBinary64))

/-- The quotient rounded down. -/
def floorDiv (a b : Number) : Except DivisionFault Number :=
  if b.toBinary64.isZero then .error .divisionByZero
  else
    .ok (combine Int.fdiv (fun x y => (x.div y).floor) a b)

/-- The remainder of the quotient rounded down, as binary64 numbers: it has the sign of the
divisor. -/
def floorRem (x y : Binary64) : Binary64 :=
  let r := x.rem y
  if !r.isZero && r.lt .zero != y.lt .zero then r.add y else r

/-- The remainder of the quotient rounded down. -/
def modulo (a b : Number) : Except DivisionFault Number :=
  if b.toBinary64.isZero then .error .moduloByZero
  else .ok (combine Int.fmod floorRem a b)

/-- Whether both are integers and equal, or both are binary64 numbers of the same value. -/
def same : Number → Number → Bool
  | int m, int n => m == n
  | float x, float y => x.eq y
  | _, _ => false

/-- The text of the number. -/
def text : Number → String
  | int n => toString n.toInt
  | float x => Shortest.text x

/-- The number that a text stands for, blanks at its ends left aside. A numeral without a point and
an exponent is an integer if it has at most 64 bits. -/
def read? (s : String) : Option Number :=
  (Decimal.read? (Text.trim s).toList).map fun numeral =>
    match if numeral.integral then ofInt? numeral.value.toInt else none with
    | some n => n
    | none => float numeral.value.toBinary64

/-- Turns all numbers into binary64 numbers if one of them is. -/
def promote (numbers : List Number) : List Number :=
  if numbers.any isFloat then numbers.map toFloat else numbers

end Number

end Scriptlet
