import Scriptlet.Numeric.Binary64

/-!
# Decimals

The decimal notation of numbers. A numeral is an optional sign, digits with at most one point, at
least one digit, and an optional exponent; all of it is ASCII. A decimal reads as the binary64
number nearest to it.
-/

namespace Scriptlet

/-- The number `digits * 10 ^ exponent`, with a sign. -/
structure Decimal where
  negative : Bool
  digits : Nat
  exponent : Int
  deriving DecidableEq, Repr

/-- A numeral: its number, and whether it is written without a point and an exponent. -/
structure Numeral where
  value : Decimal
  integral : Bool
  deriving DecidableEq, Repr

namespace Decimal

/-- The value of a digit. -/
def digitValue (c : Char) : Nat :=
  c.toNat - '0'.toNat

/-- A number with one more digit behind it. -/
def addDigit (n : Nat) (c : Char) : Nat :=
  10 * n + digitValue c

/-- How many digits are read one by one. -/
def shortRun : Nat := 64

/-- The number that digits stand for. A long run is read in halves, which takes far less time on
numbers of many digits than one digit after the other; `halvings` says how often at most. -/
def readHalves : (halvings : Nat) → List Char → Nat
  | 0, cs => cs.foldl addDigit 0
  | halvings + 1, cs =>
    if cs.length ≤ shortRun then cs.foldl addDigit 0
    else
      let low := cs.drop (cs.length / 2)
      readHalves halvings (cs.take (cs.length / 2)) * Nat.pow 10 low.length + readHalves halvings low

/-- The number that digits stand for. -/
def ofDigits (cs : List Char) : Nat :=
  readHalves 32 cs

/-- The digits before stand in front of those that follow, moved up by as many places. -/
theorem foldl_addDigit (n : Nat) (cs : List Char) :
    cs.foldl addDigit n = n * Nat.pow 10 cs.length + cs.foldl addDigit 0 := by
  induction cs generalizing n with
  | nil => simp
  | cons c cs ih =>
    rw [List.foldl_cons, List.foldl_cons, ih (addDigit n c), ih (addDigit 0 c)]
    simp only [addDigit, List.length_cons, Nat.pow_eq, Nat.pow_succ]
    grind

/-- Reading by halves comes to the same as reading digit by digit. -/
theorem readHalves_eq (halvings : Nat) (cs : List Char) :
    readHalves halvings cs = cs.foldl addDigit 0 := by
  induction halvings generalizing cs with
  | zero => rfl
  | succ halvings ih =>
    simp only [readHalves]
    split
    · rfl
    · rw [ih, ih, ← foldl_addDigit, ← List.foldl_append, List.take_append_drop]

/-- Reading in halves gives what reading digit by digit gives. -/
theorem ofDigits_eq (cs : List Char) : ofDigits cs = cs.foldl addDigit 0 :=
  readHalves_eq 32 cs

/-- An exponent that is as large as this is not read any further. -/
def exponentReach : Nat := 65536

/-- An exponent with one more digit behind it, which is passed over if the exponent is large
already. -/
def addExponentDigit (n : Nat) (c : Char) : Nat :=
  if n < exponentReach then addDigit n c else n

/-- The exponent that digits stand for. The digits behind those with which it becomes large are
passed over; only a numeral with as many digits in front of the exponent can tell. -/
def ofExponentDigits (cs : List Char) : Nat :=
  cs.foldl addExponentDigit 0

/-- An optional sign, true for minus, and the rest. -/
def readSign : List Char → Bool × List Char
  | '-' :: rest => (true, rest)
  | '+' :: rest => (false, rest)
  | cs => (false, cs)

/-- A leading run of digits and the rest. -/
def readDigits (cs : List Char) : List Char × List Char :=
  cs.span Char.isDigit

/-- The digits behind a point, if there is one, and the rest. -/
def readFraction : List Char → Option (List Char) × List Char
  | '.' :: rest =>
    let (digits, rest) := readDigits rest
    (some digits, rest)
  | cs => (none, cs)

/-- The digits of an exponent, which must be everything that is left. -/
def readExponentDigits (cs : List Char) : Option Int :=
  let (negative, cs) := readSign cs
  if cs.isEmpty || !cs.all Char.isDigit then none
  else
    let size := ofExponentDigits cs
    some (if negative then -(size : Int) else size)

/-- The exponent that everything that is left stands for: none is zero. The flag says whether one
is written. -/
def readExponent : List Char → Option (Int × Bool)
  | [] => some (0, false)
  | c :: rest =>
    if c = 'e' || c = 'E' then (readExponentDigits rest).map (·, true) else none

/-- Reads a numeral that takes all the characters. -/
def read? (cs : List Char) : Option Numeral := do
  let (negative, cs) := readSign cs
  let (whole, cs) := readDigits cs
  let (fraction, cs) := readFraction cs
  let places := fraction.getD []
  if whole.isEmpty && places.isEmpty then none
  else
    let (exponent, written) ← readExponent cs
    some
      { value := ⟨negative, ofDigits (whole ++ places), exponent - places.length⟩
        integral := fraction.isNone && !written }

/-- The decimal as an integer, which it is if its exponent is zero. -/
def toInt (d : Decimal) : Int :=
  if d.negative then -(d.digits : Int) else d.digits

/-- Decimals of at least this power of ten are infinite as binary64 numbers, and those below its
inverse are zero. -/
def hugePower : Int := 400

/-- The units nearest to `digits * 10 ^ exponent`. -/
def units (digits : Nat) (exponent : Int) : Nat :=
  if exponent < 0 then
    Binary64.roundUnits (digits * Binary64.unitsPerOne) (Nat.pow 10 exponent.natAbs)
  else Binary64.roundUnits (digits * Nat.pow 10 exponent.natAbs * Binary64.unitsPerOne) 1

/-- The binary64 number nearest to the decimal. Powers of ten so large or so small that the answer
is plain are not computed. -/
def toBinary64 (d : Decimal) : Binary64 :=
  if d.digits = 0 then .finite d.negative 0
  else if hugePower ≤ d.exponent then .infinite d.negative
  else if d.exponent + d.digits.log2 < -hugePower then .finite d.negative 0
  else
    let units := units d.digits d.exponent
    if units < Binary64.overflowUnits then .finite d.negative units else .infinite d.negative

end Decimal

end Scriptlet
