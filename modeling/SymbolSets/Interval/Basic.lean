/-!
# Closed integer ranges

An interval is a pair of bounds `lo..hi` of any size. No order of the bounds is required: when
`hi < lo` the interval holds no integer, and two such intervals with other bounds still differ.

## Main definitions

* `Interval`, with `v ∈ x` for the integers that it holds.
* `Interval.length`, `Interval.elements`: how many integers an interval holds, and which.
* `Interval.hull`, `Interval.inter`: the least interval around two, and their common part.
-/

namespace SymbolSets

/-- The range of the integers from `lo` to `hi`, both included. -/
structure Interval where
  lo : Int
  hi : Int
deriving DecidableEq

namespace Interval

instance : Membership Int Interval :=
  ⟨fun x v => x.lo ≤ v ∧ v ≤ x.hi⟩

theorem mem_def {x : Interval} {v : Int} : v ∈ x ↔ x.lo ≤ v ∧ v ≤ x.hi :=
  Iff.rfl

instance (x : Interval) (v : Int) : Decidable (v ∈ x) :=
  decidable_of_iff _ mem_def.symm

/-- The interval that holds `v` alone. -/
def single (v : Int) : Interval :=
  ⟨v, v⟩

/-- An interval is empty when it ends before it starts. -/
def IsEmpty (x : Interval) : Prop :=
  x.hi < x.lo

instance (x : Interval) : Decidable x.IsEmpty :=
  inferInstanceAs (Decidable (x.hi < x.lo))

/-- The number of integers in the interval. -/
def length (x : Interval) : Nat :=
  (x.hi + 1 - x.lo).toNat

/-- The integers of the interval, in ascending order. -/
def elements (x : Interval) : List Int :=
  (List.range x.length).map fun i : Nat => x.lo + i

/-- The least interval around both bounds of `x` and of `y`. It holds further integers when there
is a gap between them. -/
def hull (x y : Interval) : Interval :=
  ⟨min x.lo y.lo, max x.hi y.hi⟩

/-- The common part of `x` and `y`, empty when they share no integer. -/
def inter (x y : Interval) : Interval :=
  ⟨max x.lo y.lo, min x.hi y.hi⟩

theorem lo_mem {x : Interval} (hx : x.lo ≤ x.hi) : x.lo ∈ x :=
  ⟨Int.le_refl _, hx⟩

theorem hi_mem {x : Interval} (hx : x.lo ≤ x.hi) : x.hi ∈ x :=
  ⟨hx, Int.le_refl _⟩

theorem mem_single {v w : Int} : w ∈ single v ↔ w = v := by
  simp only [mem_def, single]
  omega

theorem isEmpty_iff {x : Interval} : x.IsEmpty ↔ ∀ v : Int, v ∉ x := by
  simp only [IsEmpty, mem_def]
  exact ⟨fun h v hv => by omega, fun h => by have := h x.lo; omega⟩

theorem mem_inter {x y : Interval} {v : Int} : v ∈ x.inter y ↔ v ∈ x ∧ v ∈ y := by
  simp only [mem_def, inter]
  omega

theorem mem_elements {x : Interval} {v : Int} : v ∈ x.elements ↔ v ∈ x := by
  simp only [elements, length, List.mem_map, List.mem_range, mem_def]
  constructor
  · rintro ⟨i, hi, rfl⟩
    omega
  · intro h
    exact ⟨(v - x.lo).toNat, by omega, by omega⟩

theorem length_elements (x : Interval) : x.elements.length = x.length := by
  simp [elements]

end Interval

end SymbolSets
