import SymbolSets.Text.Basic

/-!
# Arithmetic progressions

A row of integers at equal distances, given by its first integer, the bound that it stays before,
and the distance. It can be very long, so it is not listed where its length or its first integers
will do.

## Main definitions

* `Progression`, `Progression.count`, `Progression.contains`.
* `Progression.elements`, `Progression.take`, `Progression.rest`: the integers of a row, the first
  few, and all but the first.
* `Progression.order`: an order in which rows of the same integers are equal.
-/

namespace SymbolSets

/-- The integers `start`, `start + step`, `start + 2 * step` and so on, as long as they lie before
`stop` in the direction of `step`. -/
structure Progression where
  start : Int
  stop : Int
  step : Int
deriving DecidableEq

namespace Progression

/-- The number of integers. There is none if the distance is zero. -/
def count (p : Progression) : Nat :=
  if 0 < p.step then ((p.stop - p.start + p.step - 1) / p.step).toNat
  else if p.step < 0 then ((p.start - p.stop - p.step - 1) / (-p.step)).toNat
  else 0

/-- The first `n` integers in their order, as far as there are so many. -/
def take (n : Nat) (p : Progression) : List Int :=
  (List.range (min n p.count)).map fun i : Nat => p.start + i * p.step

/-- The integers in their order. -/
def elements (p : Progression) : List Int :=
  p.take p.count

/-- The row without its first integer. -/
def rest (p : Progression) : Progression :=
  { p with start := p.start + p.step }

/-- Whether `v` is one of the integers. -/
def contains (p : Progression) (v : Int) : Bool :=
  let i := (v - p.start) / p.step
  v = p.start + i * p.step ∧ 0 ≤ i ∧ i < p.count

/-- Progressions in the order of their lengths, then of their first integers, then of their
distances. The first integer counts only if there is one, and the distance only between two. -/
def order (p q : Progression) : Ordering :=
  let first (r : Progression) : Int := if r.count = 0 then 0 else r.start
  let distance (r : Progression) : Int := if r.count ≤ 1 then 0 else r.step
  (compare p.count q.count).then
    ((compare (first p) (first q)).then (compare (distance p) (distance q)))

/-- The three integers that the row was given by. The distance `1` is left out. -/
def text (p : Progression) : Text :=
  let bounds := [Text.ofInt p.start, Text.ofInt p.stop]
  let parts := if p.step = 1 then bounds else bounds ++ [Text.ofInt p.step]
  Text.ofString "range(" ++ Text.joinComma parts ++ Text.ofString ")"

end Progression

end SymbolSets
