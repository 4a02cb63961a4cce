/-!
# Decimal numbers

A decimal is a sign, a natural number and a power of ten. It is what a numeral stands for. Zero has
two signs, which are written differently.

## Main definitions

* `Decimal`.
* `Decimal.numerator`, `Decimal.denominator`: its absolute value as a fraction.
-/

namespace SymbolSets

/-- `n * base ^ e`, and `n` itself for negative exponents. A power of either sign is a fraction of
two of these. -/
def scaled (n base : Nat) (e : Int) : Nat :=
  n * base.pow e.toNat

/-- The number `± digits * 10 ^ exponent`. -/
structure Decimal where
  negative : Bool
  digits : Nat
  exponent : Int
deriving DecidableEq

namespace Decimal

/-- The numerator of the absolute value. -/
def numerator (d : Decimal) : Nat :=
  scaled d.digits 10 d.exponent

/-- The denominator of the absolute value, which need not be in lowest terms. -/
def denominator (d : Decimal) : Nat :=
  scaled 1 10 (-d.exponent)

end Decimal

end SymbolSets
