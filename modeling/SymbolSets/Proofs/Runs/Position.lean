import Mathlib.Tactic.SplitIfs
import SymbolSets.Proofs.Runs.Size

/-!
# Positions in a set

The integers of a set stand in a row, run by run. The first few of them, the one at a position, the
least and the greatest are found from the runs alone, without the row. In a canonical list the row
ascends, so the position of an integer is the number of integers of the set that are less.

## Main definitions

* `Runs.countBelow`: how many integers of a set are less than a bound.

## Main results

* `Runs.take_eq_take_elements`, `Runs.get?_eq_getElem?_elements`: a part of the row, and the integer
  at a position.
* `Runs.head?_elements`, `Runs.getLast?_elements`: the ends of the row.
* `Runs.countBelow_getElem`: the integer at a position has as many integers below it.
-/

namespace SymbolSets

namespace Interval

variable {x : Interval}

theorem length_pos (h : x.lo ≤ x.hi) : 0 < x.length := by
  rw [length]
  omega

theorem getElem?_elements (x : Interval) {i : Nat} (hi : i < x.length) :
    x.elements[i]? = some (x.lo + i) := by
  rw [elements, List.getElem?_map, List.getElem?_range hi, Option.map_some]

theorem take_elements (x : Interval) (n : Nat) :
    x.elements.take n = (List.range (min n x.length)).map fun i : Nat => x.lo + i := by
  rw [elements, ← List.map_take, List.take_range]

theorem head?_elements (h : x.lo ≤ x.hi) : x.elements.head? = some x.lo := by
  rw [List.head?_eq_getElem?, x.getElem?_elements (length_pos h), Int.natCast_zero, Int.add_zero]

theorem getLast?_elements (h : x.lo ≤ x.hi) : x.elements.getLast? = some x.hi := by
  have hlast : x.length - 1 < x.length := Nat.sub_one_lt (Nat.ne_of_gt (length_pos h))
  rw [List.getLast?_eq_getElem?, x.length_elements, x.getElem?_elements hlast]
  simp only [length, Option.some_inj]
  omega

end Interval

namespace Runs

variable {xs : Runs}

theorem elements_cons (x : Interval) (xs : Runs) :
    elements (x :: xs) = x.elements ++ elements xs :=
  List.flatMap_cons

theorem elements_append (xs ys : Runs) : elements (xs ++ ys) = elements xs ++ elements ys :=
  List.flatMap_append

/-! ### Parts of the row -/

/-- **The first few integers** are taken run by run, the last run in part. -/
theorem take_eq_take_elements : (n : Nat) → (xs : Runs) → take n xs = xs.elements.take n
  | n, [] => by
    rw [take]
    exact List.take_nil.symm
  | n, x :: xs => by
    simp only [take]
    rw [elements_cons, List.take_append, x.length_elements, x.take_elements,
      ← take_eq_take_elements]
    split_ifs with hn
    · rw [Nat.sub_eq_zero_of_le hn, take_eq_take_elements, List.take_zero, List.append_nil]
    · rfl

/-- **The integer at a position** is found by the lengths of the runs before it. -/
theorem get?_eq_getElem?_elements : (xs : Runs) → (i : Nat) → xs.get? i = xs.elements[i]?
  | [], _ => rfl
  | x :: xs, i => by
    rw [get?, elements_cons, List.getElem?_append, x.length_elements]
    split_ifs with hi
    · rw [x.getElem?_elements hi]
    · exact get?_eq_getElem?_elements xs _

/-- The row starts with the least integer. -/
theorem head?_elements (h : xs.Canonical) : xs.elements.head? = xs.least? := by
  cases xs with
  | nil => rfl
  | cons x xs =>
    rw [elements_cons, List.head?_append, Interval.head?_elements (h.lo_le_hi List.mem_cons_self)]
    rfl

/-- The row ends with the greatest integer. -/
theorem getLast?_elements (h : xs.Canonical) : xs.elements.getLast? = xs.greatest? := by
  rcases List.eq_nil_or_concat' xs with rfl | ⟨ys, y, rfl⟩
  · rfl
  · have hy : y.lo ≤ y.hi := h.lo_le_hi (List.mem_append_right ys List.mem_cons_self)
    rw [elements_append, List.getLast?_append, elements_cons, List.getLast?_append,
      Interval.getLast?_elements hy, greatest?, List.getLast?_concat]
    rfl

/-! ### Ascending rows -/

section Ascending

variable {ns : List Int} {n : Int}

/-- An ascending row starts with its least integer. -/
theorem le_of_head? (h : ns.Pairwise (· < ·)) {lo : Int} (hlo : ns.head? = some lo) (hn : n ∈ ns) :
    lo ≤ n := by
  obtain ⟨ms, rfl⟩ := List.head?_eq_some_iff.1 hlo
  rcases List.mem_cons.1 hn with rfl | hn
  · exact Int.le_refl n
  · exact Int.le_of_lt (List.rel_of_pairwise_cons h hn)

/-- An ascending row ends with its greatest integer. -/
theorem le_of_getLast? (h : ns.Pairwise (· < ·)) {hi : Int} (hhi : ns.getLast? = some hi)
    (hn : n ∈ ns) : n ≤ hi := by
  obtain ⟨ms, rfl⟩ := List.getLast?_eq_some_iff.1 hhi
  rcases List.mem_append.1 hn with hn | hn
  · exact Int.le_of_lt ((List.pairwise_append.1 h).2.2 n hn hi List.mem_cons_self)
  · exact Int.le_of_eq (List.mem_singleton.1 hn)

/-- What comes before a position in an ascending row is what is less than the integer there. -/
theorem filter_lt_getElem : {ns : List Int} → ns.Pairwise (· < ·) → {i : Nat} →
    (hi : i < ns.length) → ns.filter (· < ns[i]) = ns.take i
  | n :: ns, h, 0, _ => by
    rw [List.take_zero, List.filter_eq_nil_iff]
    intro m hm
    rcases List.mem_cons.1 hm with rfl | hm
    · simp
    · have hlt : n < m := List.rel_of_pairwise_cons h hm
      simp only [List.getElem_cons_zero, decide_eq_true_iff]
      omega
  | n :: ns, h, i + 1, hi => by
    have hi' : i < ns.length := Nat.lt_of_succ_lt_succ hi
    have hlt : n < ns[i] := List.rel_of_pairwise_cons h (List.getElem_mem hi')
    rw [List.getElem_cons_succ, List.filter_cons_of_pos (by simpa using hlt), List.take_succ_cons,
      filter_lt_getElem (List.Pairwise.of_cons h) hi']

end Ascending

/-! ### Counting -/

/-- The number of integers of the set that are less than `v`. -/
def countBelow (xs : Runs) (v : Int) : Nat :=
  (xs.toFinset.filter (· < v)).card

/-- **The integer at a position has as many integers below it.** -/
theorem countBelow_getElem (h : xs.Canonical) {i : Nat} (hi : i < xs.elements.length) :
    xs.countBelow xs.elements[i] = i := by
  have hbelow : xs.toFinset.filter (· < xs.elements[i]) = (xs.elements.take i).toFinset := by
    ext v
    rw [← filter_lt_getElem (pairwise_elements h) hi]
    simp only [toFinset, Finset.mem_filter, List.mem_toFinset, List.mem_filter, decide_eq_true_iff]
  rw [countBelow, hbelow, List.toFinset_card_of_nodup (nodup_elements h).take, List.length_take,
    Nat.min_eq_left (Nat.le_of_lt hi)]

end Runs

end SymbolSets
