import SymbolSets.Interval.Basic

/-!
# How two intervals lie to each other

The relations are stated on the bounds, so they are decided at once. They are meant for non-empty
intervals and are defined for all. `x.Touches y` is the one that a list of intervals is kept free
of: two intervals touch when they share an integer or when one starts just past the other's end.

## Main definitions

* `Precedes`, `Follows`, `Disjoint`, `Adjacent`, `Touches`: whether there is a gap, and where.
* `StartsLater`, `HoldsStart`, `StartsInside`, `Covers`: how two overlapping intervals meet.
* `remainder?`: what one interval leaves of another.
-/

namespace SymbolSets.Interval

/-- `x` starts and ends before the first integer of `y`. -/
def Precedes (x y : Interval) : Prop :=
  x.lo < y.lo ∧ x.hi < y.lo

/-- `x` starts after the last integer of `y`. -/
def Follows (x y : Interval) : Prop :=
  y.hi < x.lo

/-- `x` and `y` share no integer. -/
def Disjoint (x y : Interval) : Prop :=
  x.Precedes y ∨ x.Follows y

/-- One of `x` and `y` starts just past the end of the other. -/
def Adjacent (x y : Interval) : Prop :=
  x.lo = y.hi + 1 ∨ x.hi = y.lo - 1

/-- There is no integer between `x` and `y`: their hull is their union. -/
def Touches (x y : Interval) : Prop :=
  x.Adjacent y ∨ ¬ x.Disjoint y

/-- `x` starts after the start of `y`. -/
def StartsLater (x y : Interval) : Prop :=
  y.lo < x.lo

/-- `x` starts no later than `y` and holds its first integer. -/
def HoldsStart (x y : Interval) : Prop :=
  x.lo ≤ y.lo ∧ y.lo ≤ x.hi

/-- `x` starts at an integer of `y` other than its first. -/
def StartsInside (x y : Interval) : Prop :=
  y.lo < x.lo ∧ x.lo ≤ y.hi

/-- Both bounds of `y` lie within those of `x`. -/
def Covers (x y : Interval) : Prop :=
  x.lo ≤ y.lo ∧ y.hi ≤ x.hi

instance (x y : Interval) : Decidable (x.Precedes y) :=
  inferInstanceAs (Decidable (_ ∧ _))

instance (x y : Interval) : Decidable (x.Follows y) :=
  inferInstanceAs (Decidable (_ < _))

instance (x y : Interval) : Decidable (x.Disjoint y) :=
  inferInstanceAs (Decidable (_ ∨ _))

instance (x y : Interval) : Decidable (x.Adjacent y) :=
  inferInstanceAs (Decidable (_ ∨ _))

instance (x y : Interval) : Decidable (x.Touches y) :=
  inferInstanceAs (Decidable (_ ∨ _))

instance (x y : Interval) : Decidable (x.StartsLater y) :=
  inferInstanceAs (Decidable (_ < _))

instance (x y : Interval) : Decidable (x.HoldsStart y) :=
  inferInstanceAs (Decidable (_ ∧ _))

instance (x y : Interval) : Decidable (x.StartsInside y) :=
  inferInstanceAs (Decidable (_ ∧ _))

instance (x y : Interval) : Decidable (x.Covers y) :=
  inferInstanceAs (Decidable (_ ∧ _))

/-- The part of `x` that `y` leaves uncovered, when it is one interval: the right part if `y` holds
the start of `x`, the left part if `y` starts inside `x`. There is none when nothing is left, nor
when the two are disjoint. When `y` lies strictly inside `x`, this is the left part alone. -/
def remainder? (x y : Interval) : Option Interval :=
  let rest :=
    if y.HoldsStart x then some ⟨max x.lo (y.hi + 1), x.hi⟩
    else if y.StartsInside x then some ⟨x.lo, y.lo - 1⟩
    else none
  rest.filter fun r => ¬ r.IsEmpty

end SymbolSets.Interval
