import SymbolSets.Decimal.Basic

/-!
# Binary numbers of double precision

A double is a sign, a significand of at most 53 bits and a power of two that is not less than
`2 ^ (-1074)`. Any other number is replaced by the nearest double, and by the one with the even
significand when two are equally near. A double is compared with integers exactly, by
cross-multiplication. Only finite numbers are covered, and no bound is set to the exponent but for
integers, which can be too large to have a nearest double.

## Main definitions

* `Double`, `Double.isZero`, `Double.numerator`, `Double.denominator`.
* `Double.ofFraction`, `Double.ofDecimal`, `Double.ofInt?`: the nearest double.
* `Double.isAtLeast`, `Double.isAtMost`: exact comparison with an integer.
* `Double.sub`, `Double.add`: the difference and the sum, rounded once.
-/

namespace SymbolSets

/-- The quotient of two natural numbers, rounded to the nearest one. A half goes to the even
neighbour. -/
def roundEven (n d : Nat) : Nat :=
  let q := n / d
  let r := n % d
  if 2 * r < d then q else if d < 2 * r then q + 1 else q + q % 2

/-- The number `± significand * 2 ^ exponent`. -/
structure Double where
  negative : Bool
  significand : Nat
  exponent : Int
deriving DecidableEq

namespace Double

/-- The number of bits of a significand. -/
def precision : Nat := 53

/-- The exponent of the least positive double. -/
def leastExponent : Int := -1074

/-- The exponent of the greatest double. -/
def greatestExponent : Int := 971

/-- The power of two of the leading bit of `n / d`. -/
def leadingBit (n d : Nat) : Int :=
  let e := (n.log2 : Int) - d.log2
  if scaled n 2 (-e) < scaled d 2 e then e - 1 else e

/-- The double that is nearest to `± n / d`. -/
def ofFraction (negative : Bool) (n d : Nat) : Double :=
  if n = 0 then ⟨negative, 0, leastExponent⟩
  else
    let e := max leastExponent (leadingBit n d + 1 - precision)
    let m := roundEven (scaled n 2 (-e)) (scaled d 2 e)
    if m = Nat.pow 2 precision then ⟨negative, Nat.pow 2 (precision - 1), e + 1⟩
    else ⟨negative, m, e⟩

/-- The double that is nearest to a decimal. -/
def ofDecimal (d : Decimal) : Double :=
  ofFraction d.negative d.numerator d.denominator

/-- The double that is nearest to an integer, unless it is beyond the greatest one. -/
def ofInt? (n : Int) : Option Double :=
  let x := ofFraction (n < 0) n.natAbs 1
  if x.exponent ≤ greatestExponent then some x else none

/-- Whether the number is zero, of either sign. -/
def isZero (x : Double) : Bool :=
  x.significand == 0

/-- The numerator of the number as a fraction. -/
def numerator (x : Double) : Int :=
  let n : Int := scaled x.significand 2 x.exponent
  if x.negative then -n else n

/-- The denominator of the number as a fraction, which need not be in lowest terms. -/
def denominator (x : Double) : Nat :=
  scaled 1 2 (-x.exponent)

/-- Whether `n ≤ x`. -/
def isAtLeast (x : Double) (n : Int) : Bool :=
  n * x.denominator ≤ x.numerator

/-- Whether `x ≤ n`. -/
def isAtMost (x : Double) (n : Int) : Bool :=
  x.numerator ≤ n * x.denominator

/-- Whether `x = n`. -/
def isInt (x : Double) (n : Int) : Bool :=
  x.isAtLeast n && x.isAtMost n

/-- The double that is nearest to `x - y`. A difference of zero is negative only if a positive zero
is taken from a negative one. -/
def sub (x y : Double) : Double :=
  let n := x.numerator * y.denominator - y.numerator * x.denominator
  let negative := if n = 0 then x.isZero && x.negative && !y.negative else n < 0
  ofFraction negative n.natAbs (x.denominator * y.denominator)

/-- The double that is nearest to `x + y`. -/
def add (x y : Double) : Double :=
  x.sub { y with negative := !y.negative }

end Double

end SymbolSets
