import SymbolSets.Value.Basic

/-!
# Digests of numbers and intervals

Equal numbers have equal digests, whatever their kinds: the digest of a number is its residue modulo
a Mersenne prime, in which powers of two can be divided by. The digest of a row is mixed from those
of its items in 64-bit words. Sets have a digest of another kind, which is not defined here.

## Main definitions

* `Value.digest?`: the digest of a value that depends on nothing else.
-/

namespace SymbolSets

namespace Value

/-- The residue of `± significand * 2 ^ exponent` modulo `2 ^ 61 - 1`, with the sign of the number.
The powers of two repeat after `61` steps. The digest `-1` is not used. -/
def numberDigest (negative : Bool) (significand : Nat) (exponent : Int) : Int :=
  let r : Int := (significand * Nat.pow 2 (exponent % 61).toNat % 0x1FFFFFFFFFFFFFFF : Nat)
  let signed := if negative then -r else r
  if signed = -1 then -2 else signed

/-- The digest of an integer. -/
def intDigest (n : Int) : Int :=
  numberDigest (n < 0) n.natAbs 0

/-- What the mixing of a row starts with. -/
def rowStart : UInt64 := 2870177450012600261

/-- One more digest mixed into a row. -/
def rowStep (state : UInt64) (digest : Int) : UInt64 :=
  let x := state + UInt64.ofInt digest * 14029467366897019727
  (x <<< 31 ||| x >>> 33) * 11400714785074694791

/-- The digest of a row with the given digests of its items. -/
def rowDigest (digests : List Int) : Int :=
  let x := digests.foldl rowStep rowStart
  let y := x + (UInt64.ofNat digests.length ^^^ (rowStart ^^^ 3527539))
  if y + 1 = 0 then 1546275796 else y.toInt64.toInt

/-- The digest of the two bounds of an interval. -/
def intervalDigest (x : Span) : Int :=
  rowDigest [intDigest x.lo.toInt, intDigest x.hi.toInt]

/-- The digest of a number, an interval, a row of intervals, or a progression with a first integer
and a distance. -/
def digest? : Value → Option Int
  | .bool b => some b.toInt
  | .int n => some (intDigest n)
  | .double x => some (numberDigest x.negative x.significand x.exponent)
  | .interval x => some (intervalDigest x)
  | .intervals xs => some (rowDigest (xs.map intervalDigest))
  | .progression p =>
    if p.count ≤ 1 then none
    else some (rowDigest [intDigest p.count, intDigest p.start, intDigest p.step])
  | _ => none

end Value

end SymbolSets
