import SymbolSets.Interval.Basic

/-!
# Sets of integers as lists of runs

A finite set of integers is kept as the list of its maximal runs of consecutive integers, in
ascending order. `Runs` is the bare list of intervals. `Runs.Canonical` says that the list is in
that form, and `Runs.Holds` says which integers it stands for; both make sense for every list, and
the operations of the other modules are defined for every list too.

## Main definitions

* `Runs`, `Runs.Holds`, `Runs.Canonical`.
* `Runs.elements`, `Runs.take`: the integers of a set, all of them or the first few.
* `Runs.size`, `Runs.get?`, `Runs.elementAt`: counting and looking up by position.
* `Runs.least?`, `Runs.greatest?`: the bounds of a set.
* `Runs.bounds`: the bounds of all runs in a row.
-/

namespace SymbolSets

/-- A set of integers, listed by runs of consecutive integers. -/
abbrev Runs := List Interval

namespace Runs

/-- The integer `v` lies in one of the runs. -/
def Holds (xs : Runs) (v : Int) : Prop :=
  ∃ x ∈ xs, v ∈ x

instance (xs : Runs) (v : Int) : Decidable (xs.Holds v) :=
  inferInstanceAs (Decidable (∃ x ∈ xs, v ∈ x))

/-- No run is empty, the runs ascend, and between two of them at least one integer is missing. -/
def Canonical (xs : Runs) : Prop :=
  (∀ x ∈ xs, x.lo ≤ x.hi) ∧ xs.Pairwise fun x y => x.hi + 1 < y.lo

instance (xs : Runs) : Decidable xs.Canonical :=
  inferInstanceAs (Decidable (_ ∧ _))

/-- The integers of the set, run by run. -/
def elements (xs : Runs) : List Int :=
  xs.flatMap Interval.elements

/-- The first `n` integers of the set. Only as much of the runs is listed as is needed. -/
def take : Nat → Runs → List Int
  | _, [] => []
  | n, x :: xs =>
    let first := (List.range (min n x.length)).map fun i : Nat => x.lo + i
    if n ≤ x.length then first else first ++ take (n - x.length) xs

/-- The number of integers in the set. A single run needs no sum. -/
def size : Runs → Nat
  | [x] => x.length
  | xs => (xs.map Interval.length).foldl (· + ·) 0

/-- The integer that has exactly `i` smaller integers in the set. -/
def get? : Runs → Nat → Option Int
  | [], _ => none
  | x :: xs, i => if i < x.length then some (x.lo + i) else get? xs (i - x.length)

/-- The integer at a position counted from `0`, or the given sentinel outside the set. -/
def elementAt (xs : Runs) (i : Int) (sentinel : Int) : Int :=
  if i < 0 then sentinel else (xs.get? i.toNat).getD sentinel

/-- The least integer of the set. -/
def least? (xs : Runs) : Option Int :=
  xs.head?.map Interval.lo

/-- The greatest integer of the set. -/
def greatest? (xs : Runs) : Option Int :=
  xs.getLast?.map Interval.hi

/-- The lower and the upper bound of each run, in order. -/
def bounds (xs : Runs) : List Int :=
  xs.flatMap fun x => [x.lo, x.hi]

theorem holds_nil {v : Int} : ¬ Holds [] v := by
  simp [Holds]

theorem holds_cons {x : Interval} {xs : Runs} {v : Int} :
    Holds (x :: xs) v ↔ v ∈ x ∨ Holds xs v := by
  simp [Holds]

theorem holds_append {xs ys : Runs} {v : Int} :
    Holds (xs ++ ys) v ↔ Holds xs v ∨ Holds ys v := by
  simp only [Holds, List.mem_append, or_and_right, exists_or]

theorem mem_elements {xs : Runs} {v : Int} : v ∈ xs.elements ↔ xs.Holds v := by
  simp [elements, Holds, Interval.mem_elements]

end Runs

end SymbolSets
