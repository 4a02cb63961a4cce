import SymbolSets.Proofs.Bisection
import SymbolSets.Proofs.Runs.Canonical
import SymbolSets.Runs.Search

/-!
# What bisection finds

In a canonical list the runs start and end in ascending order. So the runs that start no later than
a value are the leading ones, the last of them ends last, and it holds the value if any run does.
This is all that is asked of a value: which integers it is no less than, and which it is no greater
than. It need not be an integer itself.

## Main results

* `Runs.holdsBy_iff`: a value is found if and only if some run holds it by its tests.
* `Runs.contains_iff`: an integer is found if and only if the set holds it.
-/

namespace SymbolSets.Runs

variable {xs : Runs} {startsBy endsFrom : Int → Bool}

/-- The runs of a canonical list start and end in ascending order. -/
theorem Canonical.pairwise_bounds (h : xs.Canonical) :
    xs.Pairwise fun x y => x.lo ≤ y.lo ∧ x.hi ≤ y.hi := by
  refine List.Pairwise.imp_of_mem ?_ h.2
  intro x y hx hy hgap
  have hxlo := h.lo_le_hi hx
  have hylo := h.lo_le_hi hy
  omega

/-- A run ends no later than one that does not come before it. -/
theorem Canonical.hi_le_hi (h : xs.Canonical) {i j : Nat} (hij : i ≤ j) (hj : j < xs.length) :
    xs[i].hi ≤ xs[j].hi := by
  rcases Nat.lt_or_eq_of_le hij with hlt | rfl
  · exact (List.pairwise_iff_getElem.1 h.pairwise_bounds i j _ hj hlt).2
  · exact Int.le_refl _

/-- The runs before the position that is found are those that start no later than the value. -/
theorem lt_bisect_runs_iff (h : xs.Canonical)
    (hstart : ∀ {m n : Int}, m ≤ n → startsBy n = true → startsBy m = true) {k : Nat}
    (hk : k < xs.length) :
    k < bisect (fun x : Interval => startsBy x.lo) xs.toArray 0 xs.toArray.size (Nat.le_refl _) ↔
      startsBy xs[k].lo = true := by
  have hturns : xs.toArray.toList.Pairwise fun x y : Interval =>
      startsBy y.lo = true → startsBy x.lo = true :=
    h.pairwise_bounds.imp fun hle => hstart hle.1
  exact lt_bisect_iff hturns (Nat.le_refl _) (Nat.zero_le k) hk hk

/-- **A value is found if and only if some run holds it,** by tests that agree with the order of the
integers: the first one holds of all integers below one of which it holds, and the second one of all
above. -/
theorem holdsBy_iff (h : xs.Canonical)
    (hstart : ∀ {m n : Int}, m ≤ n → startsBy n = true → startsBy m = true)
    (hend : ∀ {m n : Int}, m ≤ n → endsFrom m = true → endsFrom n = true) :
    xs.holdsBy startsBy endsFrom = true ↔
      ∃ x ∈ xs, startsBy x.lo = true ∧ endsFrom x.hi = true := by
  have hfound {k : Nat} (hk : k < xs.length) := lt_bisect_runs_iff h hstart hk
  have hle := (bisect_mem (p := fun x : Interval => startsBy x.lo) (Nat.le_refl xs.toArray.size)
    (Nat.zero_le _)).2
  rw [holdsBy]
  simp only [List.mem_iff_getElem]
  generalize bisect (fun x : Interval => startsBy x.lo) xs.toArray 0 xs.toArray.size _ = position
    at hfound hle ⊢
  cases position with
  | zero =>
    refine iff_of_false Bool.false_ne_true ?_
    rintro ⟨_, ⟨k, hk, rfl⟩, hstarts, -⟩
    exact Nat.not_lt_zero k ((hfound hk).2 hstarts)
  | succ i =>
    have hi : i < xs.length := hle
    have hany : (xs.toArray[i]?).any (fun x => endsFrom x.hi) = endsFrom xs[i].hi := by
      simp [hi]
    simp only [hany]
    constructor
    · intro hends
      exact ⟨_, ⟨i, hi, rfl⟩, (hfound hi).1 (Nat.lt_succ_self i), hends⟩
    -- the run that holds the value is the last one that starts in time, or it ends before that one
    · rintro ⟨_, ⟨k, hk, rfl⟩, hstarts, hends⟩
      have hki : k ≤ i := Nat.le_of_lt_succ ((hfound hk).2 hstarts)
      exact hend (h.hi_le_hi hki hi) hends

/-- **An integer is found if and only if the set holds it.** -/
theorem contains_iff (h : xs.Canonical) {v : Int} : xs.contains v = true ↔ xs.Holds v := by
  rw [contains, holdsBy_iff h]
  · simp only [decide_eq_true_iff, Holds, Interval.mem_def]
  · intro m n hmn hn
    simp only [decide_eq_true_iff] at hn ⊢
    exact Int.le_trans hmn hn
  · intro m n hmn hm
    simp only [decide_eq_true_iff] at hm ⊢
    exact Int.le_trans hm hmn

end SymbolSets.Runs
