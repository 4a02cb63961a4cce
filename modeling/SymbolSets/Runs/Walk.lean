import SymbolSets.Interval.Position
import SymbolSets.Runs.Insert

/-!
# Walking two lists of runs side by side

Two lists are walked by comparing their heads. One turn settles some intervals and says what stays
of each head. Together exactly one interval stays of the two, whatever lists are walked, so that the
walk over `m` and `n` intervals ends within `m + n` turns. The intervals of a walk may be given in
any form, and stored sets are walked with their bounds as they are written.

## Main definitions

* `Turn`, `Walk`, `Walk.run`: a turn, a rule for turns that makes progress, and the walk by it.
* `Runs.overlap`, `Runs.inter`: the common part of two sets.
* `Runs.trim`, `Runs.diff`: what one set leaves of another.
-/

namespace SymbolSets

/-- What comes of two heads. -/
structure Turn (α : Type) where
  /-- Intervals that belong to the result and will not be looked at again. -/
  settled : List α
  /-- What stays of the left head. -/
  left : List α
  /-- What stays of the right head. -/
  right : List α

/-- A rule for the turns of a walk. -/
structure Walk (α : Type) where
  turn : α → α → Turn α
  /-- Each turn uses up one of the two heads and leaves one interval in place of the other. -/
  one_stays : ∀ x y, (turn x y).left.length + (turn x y).right.length = 1
  /-- Whether the result ends with what stays of the left list once the right list is used up. -/
  keepsLeft : Bool

/-- The intervals that are settled until one of the lists is used up, in order. -/
def Walk.run {α : Type} (w : Walk α) : List α → List α → List α
  | [], _ => []
  | x :: xs, [] => if w.keepsLeft then x :: xs else []
  | x :: xs, y :: ys =>
    (w.turn x y).settled ++ w.run ((w.turn x y).left ++ xs) ((w.turn x y).right ++ ys)
termination_by xs ys => xs.length + ys.length
decreasing_by
  have := w.one_stays x y
  simp only [List.length_append, List.length_cons]
  omega

namespace Runs

/-- Two heads compared for their common part. The head that ends first is used up; the other may
overlap the next interval on the opposite side too. -/
def overlapTurn (x y : Interval) : Turn Interval :=
  if x.Precedes y then ⟨[], [], [y]⟩
  else if y.Precedes x then ⟨[], [x], []⟩
  else if x.Covers y then ⟨[x.inter y], [x], []⟩
  else if y.Covers x then ⟨[x.inter y], [], [y]⟩
  else if ¬ x.Disjoint y then
    if x.StartsInside y then ⟨[x.inter y], [x], []⟩
    else if y.StartsInside x then ⟨[x.inter y], [], [y]⟩
    else ⟨[x.inter y], [x], [y]⟩
  else ⟨[], [x], [y]⟩

/-- The positions that `overlapTurn` tells apart are all there are, for empty intervals as well. -/
theorem overlapTurn_one_stays (x y : Interval) :
    (overlapTurn x y).left.length + (overlapTurn x y).right.length = 1 := by
  grind [overlapTurn, Interval.Precedes, Interval.Covers, Interval.Disjoint, Interval.Follows,
    Interval.StartsInside]

/-- The walk that settles the common part of two lists. -/
def overlap : Walk Interval where
  turn := overlapTurn
  one_stays := overlapTurn_one_stays
  keepsLeft := false

/-- The integers that two sets have in common. -/
def inter (xs ys : Runs) : Runs :=
  ofIntervals (overlap.run xs ys)

/-- Two heads compared for what the right one leaves of the left one: the part before it is settled
once nothing further can touch it, and the part after it stays to be compared with the next. -/
def trimTurn (x y : Interval) : Turn Interval :=
  if y.hi < x.lo then ⟨[], [x], []⟩
  else if x.hi < y.lo then ⟨[x], [], [y]⟩
  else if x.lo < y.lo then
    if y.hi < x.hi then ⟨[⟨x.lo, y.lo - 1⟩], [⟨y.hi + 1, x.hi⟩], []⟩
    else ⟨[⟨x.lo, y.lo - 1⟩], [], [y]⟩
  else
    if y.hi < x.hi then ⟨[], [⟨y.hi + 1, x.hi⟩], []⟩
    else ⟨[], [], [y]⟩

theorem trimTurn_one_stays (x y : Interval) :
    (trimTurn x y).left.length + (trimTurn x y).right.length = 1 := by
  grind [trimTurn]

/-- The walk that settles what the right list leaves of the left one. -/
def trim : Walk Interval where
  turn := trimTurn
  one_stays := trimTurn_one_stays
  keepsLeft := true

/-- The integers of the left set that are not in the right one. -/
def diff (xs ys : Runs) : Runs :=
  trim.run xs ys

end Runs

end SymbolSets
