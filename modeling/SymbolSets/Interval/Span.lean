import SymbolSets.Interval.Position
import SymbolSets.Symbols
import SymbolSets.Text.Basic

/-!
# Intervals as they are written

A bound of an interval is an integer, or a truth value that counts as `1` or `0`. An interval keeps
its bounds as they were given, and shows them so; otherwise it is the same with integers for truth
values. Intervals of one small integer are shared, so both bounds of an interval of one integer are
plain integers, whatever they were given as.

## Main definitions

* `Bound`: an integer as it is written.
* `Span`, `Span.interval`: an interval as it is written, and the interval.
* `Span.of`: the interval with given bounds.
* `Span.hull`, `Span.inter`, `Span.remainder?`: the interval around two, their common part, and what
  one leaves of the other.
* `Span.dropTo`, `Span.takeTo`: an interval cut at an integer.
* `Span.text`, `Span.recordText`: the two ways to show an interval.
-/

namespace SymbolSets

/-- An integer, or a truth value in place of one. -/
inductive Bound
  | int (n : Int)
  | truth (b : Bool)
deriving DecidableEq

namespace Bound

/-- The integer. -/
def toInt : Bound → Int
  | .int n => n
  | .truth b => b.toInt

/-- The bound as it is shown. -/
def text : Bound → Text
  | .int n => Text.ofInt n
  | .truth b => Text.ofBool b

/-- The lesser one of two bounds, the first one if they are the same integer. -/
def min (a b : Bound) : Bound :=
  if a.toInt ≤ b.toInt then a else b

/-- The greater one of two bounds, the first one if they are the same integer. -/
def max (a b : Bound) : Bound :=
  if b.toInt ≤ a.toInt then a else b

/-- Truth values stand for small integers only. -/
theorem eq_int {b : Bound} (h : ¬ (0 ≤ b.toInt ∧ b.toInt ≤ sharedSingleLimit)) :
    b = .int b.toInt := by
  cases b with
  | int n => rfl
  | truth b => cases b <;> exact absurd (by decide) h

@[simp] theorem toInt_min (a b : Bound) : (a.min b).toInt = Min.min a.toInt b.toInt := by
  rw [min]
  split <;> omega

@[simp] theorem toInt_max (a b : Bound) : (a.max b).toInt = Max.max a.toInt b.toInt := by
  rw [max]
  split <;> omega

end Bound

/-- An interval by its bounds as they are written. -/
structure Span where
  lo : Bound
  hi : Bound
  /-- The interval of one integer has plain bounds. -/
  plain_of_eq : lo.toInt = hi.toInt → lo = .int lo.toInt ∧ hi = .int hi.toInt
deriving DecidableEq

namespace Span

/-- The integers between the bounds. -/
def interval (x : Span) : Interval :=
  ⟨x.lo.toInt, x.hi.toInt⟩

/-- The interval with bounds that are plain integers. -/
def plain (x : Interval) : Span :=
  ⟨.int x.lo, .int x.hi, fun _ => ⟨rfl, rfl⟩⟩

/-- The interval that holds `n` alone. -/
def single (n : Int) : Span :=
  plain (.single n)

/-- The interval with the given bounds. If it is shared, it has plain ones. -/
def of (lo hi : Bound) : Span :=
  if h : lo.toInt = hi.toInt ∧ 0 ≤ lo.toInt ∧ lo.toInt ≤ sharedSingleLimit then single lo.toInt
  else
    ⟨lo, hi, fun heq =>
      have hlarge : ¬ (0 ≤ lo.toInt ∧ lo.toInt ≤ sharedSingleLimit) := fun hsmall => h ⟨heq, hsmall⟩
      ⟨Bound.eq_int hlarge, Bound.eq_int (heq ▸ hlarge)⟩⟩

/-- The least interval around both bounds of `x` and of `y`. -/
def hull (x y : Span) : Span :=
  of (x.lo.min y.lo) (x.hi.max y.hi)

/-- The common part of `x` and `y`. -/
def inter (x y : Span) : Span :=
  of (x.lo.max y.lo) (x.hi.min y.hi)

/-- The part of `x` from `n` on, if `n` is not less than its lower bound. -/
def dropTo (x : Span) (n : Int) : Span :=
  of (.int n) x.hi

/-- The part of `x` up to `n`, if `n` is not greater than its upper bound. -/
def takeTo (x : Span) (n : Int) : Span :=
  of x.lo (.int n)

/-- The part of `x` that `y` leaves uncovered, when it is one interval. -/
def remainder? (x y : Span) : Option Span :=
  let rest :=
    if y.interval.HoldsStart x.interval then some (of (x.lo.max (.int (y.hi.toInt + 1))) x.hi)
    else if y.interval.StartsInside x.interval then some (x.takeTo (y.lo.toInt - 1))
    else none
  rest.filter fun r => ¬ r.interval.IsEmpty

/-- What stands between the bounds of a range. -/
def dots : Text :=
  Text.ofChars ['.', '.']

/-- The two bounds of an interval. -/
def text (x : Span) : Text :=
  x.lo.text ++ dots ++ x.hi.text

/-- The interval as a record. -/
def recordText (x : Span) : Text :=
  Text.ofString "Interval(a=" ++ x.lo.text ++ Text.ofString ", b=" ++ x.hi.text ++
    Text.ofString ")"

@[simp] theorem interval_plain (x : Interval) : (plain x).interval = x :=
  rfl

@[simp] theorem interval_single (n : Int) : (single n).interval = .single n :=
  rfl

/-- However the bounds are written, the interval is the same. -/
@[simp] theorem interval_of (lo hi : Bound) : (of lo hi).interval = ⟨lo.toInt, hi.toInt⟩ := by
  rw [of]
  split
  next h =>
    rw [interval_single, Interval.single, ← h.1]
  next => rfl

@[simp] theorem interval_hull (x y : Span) :
    (x.hull y).interval = x.interval.hull y.interval := by
  rw [hull, interval_of, Bound.toInt_min, Bound.toInt_max]
  rfl

@[simp] theorem interval_inter (x y : Span) :
    (x.inter y).interval = x.interval.inter y.interval := by
  rw [inter, interval_of, Bound.toInt_max, Bound.toInt_min]
  rfl

@[simp] theorem interval_dropTo (x : Span) (n : Int) :
    (x.dropTo n).interval = ⟨n, x.interval.hi⟩ :=
  interval_of _ _

@[simp] theorem interval_takeTo (x : Span) (n : Int) :
    (x.takeTo n).interval = ⟨x.interval.lo, n⟩ :=
  interval_of _ _

/-- What one interval leaves of another is the same however both are written. -/
@[simp] theorem map_interval_remainder? (x y : Span) :
    (x.remainder? y).map Span.interval = x.interval.remainder? y.interval := by
  have hrest (rest : Option Span) : (rest.filter fun r => ¬ r.interval.IsEmpty).map Span.interval =
      (rest.map Span.interval).filter fun r => ¬ r.IsEmpty := by
    cases rest with
    | none => rfl
    | some r =>
      by_cases hr : r.interval.IsEmpty
      · simp [Option.filter, hr]
      · simp [Option.filter, hr]
  rw [remainder?, hrest, Interval.remainder?]
  congr 1
  split
  · rw [Option.map_some, interval_of, Bound.toInt_max]
    rfl
  · split
    · rw [Option.map_some, interval_takeTo]
      rfl
    · rfl

end Span

end SymbolSets
