import SymbolSets.Decimal.Numeral
import SymbolSets.Double.Basic

/-!
# The shortest numeral of a double

Many decimals have the same nearest double. A double is written as the one among them with the
fewest digits, and as the nearest of those to the double itself when there are several. The search
goes through the powers of ten from above: the first one of which a multiple has the double as its
nearest gives the fewest digits, and only the two multiples around the double need a test.

## Main definitions

* `Double.readsBack`: whether a decimal has the double as its nearest one.
* `Double.multiple?`: the multiple of a power of ten that the double is written as, if there is one.
* `Double.shortest`, `Double.text`: the shortest decimal, and its numeral.
-/

namespace SymbolSets.Double

/-- How far the numbers reach down that are nearest to a positive double, in quarters of its last
bit. Below a power of two the doubles lie twice as close. -/
def lowerEnd (x : Double) : Nat :=
  4 * x.significand -
    (if x.significand = Nat.pow 2 (precision - 1) ∧ leastExponent < x.exponent then 1 else 2)

/-- How far they reach up. -/
def upperEnd (x : Double) : Nat :=
  4 * x.significand + 2

/-- Whether the double is the nearest one to `c * 10 ^ e` up to the sign. The ends themselves are
as near to the neighbour, and belong to the one whose significand is even. -/
def readsBack (x : Double) (c : Nat) (e : Int) : Bool :=
  let v := scaled (scaled c 10 e) 2 (2 - x.exponent)
  let quarter := scaled (scaled 1 10 (-e)) 2 (x.exponent - 2)
  let low := quarter * x.lowerEnd
  let high := quarter * x.upperEnd
  if x.significand % 2 = 0 then low ≤ v && v ≤ high else low < v && v < high

/-- The factor `c` for which `c * 10 ^ e` is read as the double, the nearer one if two are. An exact
tie goes to the even factor. -/
def multiple? (x : Double) (e : Int) : Option Nat :=
  let n := scaled (scaled x.significand 2 x.exponent) 10 (-e)
  let d := scaled (scaled 1 2 (-x.exponent)) 10 e
  let c := n / d
  match x.readsBack c e, x.readsBack (c + 1) e with
  | true, true => some (roundEven n d)
  | true, false => some c
  | false, true => some (c + 1)
  | false, false => none

/-- The decimal with all digits of the double. -/
def allDigits (x : Double) : Decimal :=
  ⟨x.negative, scaled (scaled x.significand 2 x.exponent) 5 (-x.exponent), min x.exponent 0⟩

/-- Tries powers of ten from `10 ^ e` down. -/
def search (x : Double) : (steps : Nat) → (e : Int) → Decimal
  | 0, _ => x.allDigits
  | steps + 1, e =>
    match x.multiple? e with
    | some c => ⟨x.negative, c, e⟩
    | none => search x steps (e - 1)

/-- A power of ten that is too large to have a multiple near the double, or just large enough. One
bit is worth about `0.30103` decimal digits. -/
def firstPower (x : Double) : Int :=
  Int.fdiv ((x.significand.log2 + x.exponent + 1) * 30103) 100000 + 1

/-- The decimal with the fewest digits that is read as the double. Seventeen digits are enough for
every double, and at most two powers are tried before the one of the leading digit. -/
def shortest (x : Double) : Decimal :=
  if x.isZero then ⟨x.negative, 0, 0⟩ else x.search 20 x.firstPower

/-- The shortest numeral of the double. -/
def text (x : Double) : Text :=
  x.shortest.text

end SymbolSets.Double
