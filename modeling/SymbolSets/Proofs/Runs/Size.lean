import Mathlib.Data.Finset.Card
import SymbolSets.Proofs.Runs.Canonical

/-!
# The size of a set

The runs of a canonical list are listed in ascending order, so no integer is listed twice, and the
sum of their lengths counts the integers that the list holds.

## Main results

* `Runs.pairwise_elements`: the elements of a canonical list ascend.
* `Runs.toFinset`, `Runs.size_eq_card`: the size counts the integers that are held.
* `Runs.size_add_size_of_holds`, `Runs.size_add_size_of_partition`: how sizes add up.
-/

namespace SymbolSets

theorem Interval.pairwise_elements (x : Interval) : x.elements.Pairwise (· < ·) := by
  rw [elements, List.pairwise_map]
  refine List.pairwise_lt_range.imp fun {i j} hij => ?_
  omega

namespace Runs

/-- The elements of a canonical list come in ascending order. -/
theorem pairwise_elements : {xs : Runs} → xs.Canonical → xs.elements.Pairwise (· < ·)
  | [], _ => List.Pairwise.nil
  | x :: xs, h => by
    rw [elements, List.flatMap_cons, List.pairwise_append]
    refine ⟨x.pairwise_elements, pairwise_elements h.tail, ?_⟩
    intro v hv w hw
    have hvx : v ≤ x.hi := (Interval.mem_elements.1 hv).2
    have hgap : x.hi + 1 < w := h.gap (mem_elements.1 hw)
    omega

theorem nodup_elements {xs : Runs} (h : xs.Canonical) : xs.elements.Nodup :=
  (pairwise_elements h).imp fun hlt => Int.ne_of_lt hlt

/-- The number of elements is the sum of the lengths of the runs. -/
theorem length_elements (xs : Runs) :
    xs.elements.length = (xs.map Interval.length).foldl (· + ·) 0 := by
  rw [← List.sum_eq_foldl_nat, elements, List.length_flatMap]
  simp only [Interval.length_elements]

/-- The size is the number of elements that are listed, with or without a sum. -/
theorem size_eq_length_elements (xs : Runs) : xs.size = xs.elements.length := by
  rw [length_elements, size.eq_def]
  split
  · simp
  · rfl

/-- The integers that the runs stand for. -/
def toFinset (xs : Runs) : Finset Int :=
  xs.elements.toFinset

theorem mem_toFinset {xs : Runs} {v : Int} : v ∈ xs.toFinset ↔ xs.Holds v := by
  rw [toFinset, List.mem_toFinset, mem_elements]

/-- **The size counts the integers that a canonical list holds.** -/
theorem size_eq_card {xs : Runs} (h : xs.Canonical) : xs.size = xs.toFinset.card := by
  rw [size_eq_length_elements, toFinset, List.toFinset_card_of_nodup (nodup_elements h)]

variable {xs ys us vs : Runs}

/-- Two sets have together as many elements as their union and their common part have. -/
theorem size_add_size_of_holds (hxs : xs.Canonical) (hys : ys.Canonical) (hus : us.Canonical)
    (hvs : vs.Canonical) (hunion : ∀ v, us.Holds v ↔ xs.Holds v ∨ ys.Holds v)
    (hinter : ∀ v, vs.Holds v ↔ xs.Holds v ∧ ys.Holds v) :
    us.size + vs.size = xs.size + ys.size := by
  have hu : us.toFinset = xs.toFinset ∪ ys.toFinset := by
    ext v
    simp only [Finset.mem_union, mem_toFinset, hunion]
  have hv : vs.toFinset = xs.toFinset ∩ ys.toFinset := by
    ext v
    simp only [Finset.mem_inter, mem_toFinset, hinter]
  rw [size_eq_card hus, size_eq_card hvs, size_eq_card hxs, size_eq_card hys, hu, hv]
  exact Finset.card_union_add_card_inter _ _

/-- A set has as many elements as its parts inside and outside another one. -/
theorem size_add_size_of_partition (hxs : xs.Canonical) (hus : us.Canonical) (hvs : vs.Canonical)
    (hinter : ∀ v, us.Holds v ↔ xs.Holds v ∧ ys.Holds v)
    (hdiff : ∀ v, vs.Holds v ↔ xs.Holds v ∧ ¬ ys.Holds v) :
    us.size + vs.size = xs.size := by
  have hu : us.toFinset = xs.toFinset ∩ ys.toFinset := by
    ext v
    simp only [Finset.mem_inter, mem_toFinset, hinter]
  have hv : vs.toFinset = xs.toFinset \ ys.toFinset := by
    ext v
    simp only [Finset.mem_sdiff, mem_toFinset, hdiff]
  rw [size_eq_card hus, size_eq_card hvs, size_eq_card hxs, hu, hv]
  exact Finset.card_inter_add_card_sdiff _ _

end Runs

end SymbolSets
