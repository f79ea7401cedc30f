/-!
# Binary floating-point numbers

The numbers of the IEEE 754 format binary64. The smallest positive one is the *unit*, `2 ^ -1074`;
every finite one is a whole number of units with a sign, so zero has a sign too. Each operation is
exact first and then rounded once, by `ofRatio`, to the nearest number of the format, a tie going to
the even significand.
-/

namespace Scriptlet

/-- A number of the format, an infinity, or no number. -/
inductive Binary64 where
  | nan
  | infinite (negative : Bool)
  | finite (negative : Bool) (units : Nat)
  deriving DecidableEq, Repr, Inhabited

namespace Binary64

/-- How many units make one. -/
def unitsPerOne : Nat := Nat.pow 2 1074

/-- The number of units from which a magnitude is infinite. -/
def overflowUnits : Nat := Nat.pow 2 2098

/-- How many binary digits a significand has. -/
def precision : Nat := 53

/-- The quotient of two numbers rounded to the nearest whole number, a tie to the even one. -/
def roundQuotient (num den : Nat) : Nat :=
  let quotient := num / den
  let twice := 2 * (num % den)
  if den < twice || (twice == den && quotient % 2 == 1) then quotient + 1 else quotient

/-- The quotient rounded to a whole number of units with at most `precision` significant binary
digits. -/
def roundUnits (num den : Nat) : Nat :=
  let scale := Nat.pow 2 ((num / den).log2 + 1 - precision)
  roundQuotient num (den * scale) * scale

/-- The number nearest to so many units, or the infinity. -/
def ofRatio (negative : Bool) (num den : Nat) : Binary64 :=
  let units := roundUnits num den
  if units < overflowUnits then finite negative units else infinite negative

/-- Zero without a minus sign. -/
def zero : Binary64 := finite false 0

/-- The number nearest to an integer. -/
def ofInt (n : Int) : Binary64 :=
  ofRatio (n < 0) (n.natAbs * unitsPerOne) 1

/-- The number nearest to a quotient of natural numbers. -/
def ofQuotient (num den : Nat) : Binary64 :=
  ofRatio false (num * unitsPerOne) den

/-- Whether the number is a zero of either sign. -/
def isZero : Binary64 → Bool
  | finite _ units => units == 0
  | _ => false

/-- The number with the other sign. -/
def neg : Binary64 → Binary64
  | nan => nan
  | infinite negative => infinite !negative
  | finite negative units => finite (!negative) units

/-- A finite number as an integer count of units. -/
def signedUnits (negative : Bool) (units : Nat) : Int :=
  if negative then -(units : Int) else units

/-- The sum. A sum that is exactly zero is negative only if both summands are negative zeros. -/
def add : Binary64 → Binary64 → Binary64
  | nan, _ => nan
  | _, nan => nan
  | infinite s, infinite t => if s = t then infinite s else nan
  | infinite s, finite _ _ => infinite s
  | finite _ _, infinite t => infinite t
  | finite s a, finite t b =>
    let sum := signedUnits s a + signedUnits t b
    if sum = 0 then finite (s && t) 0 else ofRatio (sum < 0) sum.natAbs 1

/-- The difference. -/
def sub (x y : Binary64) : Binary64 :=
  x.add y.neg

/-- The product. -/
def mul : Binary64 → Binary64 → Binary64
  | nan, _ => nan
  | _, nan => nan
  | infinite s, infinite t => infinite (s != t)
  | infinite s, finite t b => if b = 0 then nan else infinite (s != t)
  | finite s a, infinite t => if a = 0 then nan else infinite (s != t)
  | finite s a, finite t b => ofRatio (s != t) (a * b) unitsPerOne

/-- The quotient. -/
def div : Binary64 → Binary64 → Binary64
  | nan, _ => nan
  | _, nan => nan
  | infinite _, infinite _ => nan
  | infinite s, finite t _ => infinite (s != t)
  | finite s _, infinite t => finite (s != t) 0
  | finite s a, finite t b =>
    if b = 0 then (if a = 0 then nan else infinite (s != t))
    else ofRatio (s != t) (a * unitsPerOne) b

/-- The remainder of the division that rounds toward zero; it has the sign of the dividend. -/
def rem : Binary64 → Binary64 → Binary64
  | nan, _ => nan
  | _, nan => nan
  | infinite _, _ => nan
  | finite s a, infinite _ => finite s a
  | finite s a, finite _ b => if b = 0 then nan else ofRatio s (a % b) 1

/-- The greatest whole number that is not above the number. -/
def floor : Binary64 → Binary64
  | nan => nan
  | infinite s => infinite s
  | finite s a =>
    let ones := if s then (a + unitsPerOne - 1) / unitsPerOne else a / unitsPerOne
    ofRatio s (ones * unitsPerOne) 1

/-- The whole part as an integer, an infinity cut off at the given bounds, and zero for no number.
Finite whole parts are cut off at the bounds too. -/
def truncate (lo hi : Int) : Binary64 → Int
  | nan => 0
  | infinite negative => if negative then lo else hi
  | finite negative units => max lo (min hi (signedUnits negative (units / unitsPerOne)))

/-- Whether the first number is below the second. Nothing is below or above no number. -/
def lt : Binary64 → Binary64 → Bool
  | nan, _ => false
  | _, nan => false
  | infinite s, infinite t => s && !t
  | infinite s, finite _ _ => s
  | finite _ _, infinite t => !t
  | finite s a, finite t b => signedUnits s a < signedUnits t b

/-- Whether two numbers have the same value. The two zeros have; no number equals nothing, not even
itself. -/
def eq : Binary64 → Binary64 → Bool
  | nan, _ => false
  | _, nan => false
  | infinite s, infinite t => s == t
  | infinite _, finite _ _ => false
  | finite _ _, infinite _ => false
  | finite s a, finite t b => signedUnits s a == signedUnits t b

/-- Whether the first number is not above the second. -/
def le (x y : Binary64) : Bool :=
  x.lt y || x.eq y

end Binary64

end Scriptlet
