import Scriptlet.Numeric.Decimal

/-!
# The shortest text of a binary64 number

A finite number is written with the fewest significant digits that read back as the same number; of
two such digit strings with equally many digits the nearer to the number is taken, and the larger if
both are equally near.
-/

namespace Scriptlet.Shortest

/-- Digits and a power of ten for a positive magnitude. -/
structure Digits where
  digits : Nat
  exponent : Int
  deriving DecidableEq, Repr

/-- Whether the digits read back as this many units. -/
def Digits.readsBack (d : Digits) (units : Nat) : Bool :=
  Decimal.units d.digits d.exponent == units

/-- The magnitude as a multiple of a power of ten: the numerator and the denominator of the
quotient. -/
def scaled (units : Nat) (exponent : Int) : Nat × Nat :=
  if exponent < 0 then (units * Nat.pow 10 exponent.natAbs, Binary64.unitsPerOne)
  else (units, Binary64.unitsPerOne * Nat.pow 10 exponent.natAbs)

/-- The multiple of the power of ten that reads back as the magnitude: of its two neighbours, the
nearer one that does. -/
def onGrid (units : Nat) (exponent : Int) : Option Digits :=
  let (num, den) := scaled units exponent
  let below : Digits := ⟨num / den, exponent⟩
  let above : Digits := ⟨num / den + 1, exponent⟩
  let (nearer, farther) := if den ≤ 2 * (num % den) then (above, below) else (below, above)
  [nearer, farther].find? fun d => d.readsBack units

/-- The units in the last place of a magnitude. What reads back as the magnitude is at most half as
far from it. -/
def lastPlace (units : Nat) : Nat :=
  Nat.pow 2 (units.log2 + 1 - Binary64.precision)

/-- A power of ten above the magnitude, by the logarithm of two to five decimals. -/
def topExponent (units : Nat) : Int :=
  ((units.log2 : Int) - 1073) * 30103 / 100000 + 2

/-- A power of ten in which the magnitude has seventeen digits or more, as many as are ever
needed. -/
def finestExponent (units : Nat) : Int :=
  topExponent units - 19

/-- The first and the last multiple of the power of ten within half a last place of the
magnitude. -/
def candidates (units : Nat) (exponent : Int) : Nat × Nat :=
  let (num, den) := scaled units exponent
  let (width, _) := scaled (lastPlace units) exponent
  ((2 * num - width + 2 * den - 1) / (2 * den), (2 * num + width) / (2 * den))

/-- How many times at most the numbers from the first to the last can be thinned out to those that
end in a zero, that zero dropped, until none is left. -/
def trailingZeros : (most first last : Nat) → Nat
  | 0, _, _ => 0
  | most + 1, first, last =>
    if first ≤ last / 10 * 10 then trailingZeros most ((first + 9) / 10) (last / 10) + 1 else 0

/-- The powers of ten that are tried, from the largest of which a multiple is near enough. -/
def exponents (units : Nat) : List Int :=
  let finest := finestExponent units
  let (first, last) := candidates units finest
  let zeros := trailingZeros 20 first last
  (List.range (zeros + 3)).map fun (i : Nat) => finest + zeros - i

/-- The exact digits of a magnitude: a unit is `5 ^ 1074` in the place `10 ^ -1074`. -/
def exactDigits (units : Nat) : Digits :=
  ⟨units * Nat.pow 5 1074, -1074⟩

/-- The fewest digits that read back as the magnitude. Seventeen always do, so the exact digits are
only there to make the function total. -/
def digits (units : Nat) : Digits :=
  ((exponents units).findSome? (onGrid units)).getD (exactDigits units)

/-- So many zeros. -/
def zeros (n : Nat) : List Char :=
  List.replicate n '0'

/-- Digits with a point behind the first `whole` of them. There is always a digit on each side of
the point. -/
def positional (ds : List Char) (whole : Int) : List Char :=
  if whole ≤ 0 then '0' :: '.' :: zeros whole.natAbs ++ ds
  else
    let n := whole.natAbs
    if ds.length ≤ n then ds ++ zeros (n - ds.length) ++ ['.', '0']
    else ds.take n ++ '.' :: ds.drop n

/-- Digits with a point behind the first, if there are more, and an exponent. -/
def scientific (ds : List Char) (exponent : Int) : List Char :=
  let point := if ds.length ≤ 1 then [] else ['.']
  ds.take 1 ++ point ++ ds.drop 1 ++ 'e' :: (toString exponent).toList

/-- The text of a magnitude. It is positional for zero and from `10 ^ -4` up to `10 ^ 16`, and
scientific otherwise. -/
def magnitude (units : Nat) : List Char :=
  if units = 0 then ['0', '.', '0']
  else
    let d := digits units
    let ds := Nat.toDigits 10 d.digits
    let whole : Int := ds.length + d.exponent
    if -4 < whole && whole ≤ 16 then positional ds whole else scientific ds (whole - 1)

/-- The text of a binary64 number. -/
def text : Binary64 → String
  | .nan => "NaN"
  | .infinite negative => if negative then "-inf" else "inf"
  | .finite negative units =>
    .ofList ((if negative then ['-'] else []) ++ magnitude units)

end Scriptlet.Shortest
