import SymbolSets.Proofs.Runs.Walk

/-!
# How many runs there are

Adding an interval makes at most one run more, whatever it is merged with, and so does removing an
integer, which splits a run in two. A turn of a walk over two lists settles at most one interval and
leaves one run less to be looked at. These bounds are facts about the operations on lists of any
form.

A canonical list is what its integers are added up to in any order, from whatever intervals they
come. So it is never longer than a list of intervals that covers the same integers.

## Main results

* `Runs.length_insert_le`, `Runs.length_insertAll_le`, `Runs.length_erase_le`: adding intervals and
  removing an integer.
* `Walk.length_run_le`, `Runs.length_inter_le`, `Runs.length_diff_le`: walks.
* `Runs.Canonical.length_le`: no cover is shorter than the canonical list.
-/

namespace SymbolSets

namespace Runs

/-! ### Adding intervals -/

theorem length_absorb_le (r : Interval) (xs : Runs) : (absorb r xs).length ≤ xs.length + 1 := by
  induction xs generalizing r with
  | nil => exact Nat.le_refl 1
  | cons x xs ih =>
    rw [absorb]
    split_ifs
    · exact Nat.le_succ_of_le (ih (r.hull x))
    · exact Nat.le_refl _

theorem length_place_le (r : Interval) (xs : Runs) : (place r xs).length ≤ xs.length + 1 := by
  induction xs with
  | nil => exact Nat.le_refl 1
  | cons x xs ih =>
    rw [place]
    split_ifs
    · exact Nat.le_succ _
    · exact Nat.le_succ_of_le (length_absorb_le (r.hull x) xs)
    · exact Nat.le_refl _
    · exact Nat.succ_le_succ ih

/-- **Adding an interval makes at most one run more.** -/
theorem length_insert_le (r : Interval) (xs : Runs) : (insert r xs).length ≤ xs.length + 1 := by
  rw [insert]
  split_ifs
  · exact Nat.le_succ _
  · exact length_place_le r xs

/-- Each interval makes at most one run more, and an empty one makes none. -/
theorem length_insertAll_le (xs : Runs) (rs : List Interval) :
    (insertAll xs rs).length ≤ xs.length + rs.countP fun r => ¬ r.IsEmpty := by
  induction rs generalizing xs with
  | nil => exact Nat.le_refl _
  | cons r rs ih =>
    have hrest := ih (insert r xs)
    rw [insertAll_cons, List.countP_cons]
    by_cases hr : r.IsEmpty
    · rw [insert, if_pos hr] at hrest ⊢
      simpa [hr] using hrest
    · have hfirst := length_insert_le r xs
      simp only [hr, not_false_eq_true, decide_true, if_true]
      omega

/-! ### Removing an integer -/

/-- **Removing an integer makes at most one run more.** -/
theorem length_erase_le (v : Int) (xs : Runs) : (erase v xs).length ≤ xs.length + 1 := by
  induction xs with
  | nil => exact Nat.zero_le 1
  | cons x xs ih =>
    rw [erase]
    split_ifs <;> simp only [List.length_cons] <;> omega

end Runs

/-! ### Walks -/

/-- **The number of intervals that a walk settles.** Each turn settles one at most and uses up one
head. If the left list is dropped once the right one is used up, the last head that stays settles
nothing. -/
theorem Walk.length_run_le {w : Walk Interval}
    (hw : ∀ x y, (w.turn x y).settled.length ≤ 1) (xs ys : Runs) :
    (w.run xs ys).length ≤ xs.length + ys.length - if w.keepsLeft then 0 else 1 := by
  induction xs, ys using Walk.run.induct w with
  | case1 ys =>
    rw [Walk.run]
    exact Nat.zero_le _
  | case2 x xs keeps =>
    rw [Walk.run, if_pos keeps, if_pos keeps]
    exact Nat.le_refl _
  | case3 x xs drops =>
    rw [Walk.run, if_neg drops]
    exact Nat.zero_le _
  | case4 x xs y ys ih =>
    have hsettled := hw x y
    have hstays := w.one_stays x y
    have hdropped : (if w.keepsLeft then 0 else 1) ≤ 1 := by split_ifs <;> decide
    rw [List.length_append, List.length_append] at ih
    rw [Walk.run, List.length_append, List.length_cons, List.length_cons]
    omega

namespace Runs

variable {xs : Runs}

/-- The common part has fewer runs than both sets together. -/
theorem length_inter_le (xs ys : Runs) :
    (inter xs ys).length ≤ xs.length + ys.length - 1 := by
  have hturn (x y : Interval) : (overlap.turn x y).settled.length ≤ 1 := by
    simp only [overlap, overlapTurn]
    split_ifs <;> simp
  have hwalk : (overlap.run xs ys).length ≤ xs.length + ys.length - 1 :=
    Walk.length_run_le hturn xs ys
  have hcollected := length_insertAll_le [] (overlap.run xs ys)
  have hcount := List.countP_le_length (p := fun r => ¬ r.IsEmpty) (l := overlap.run xs ys)
  rw [inter, ofIntervals]
  rw [List.length_nil] at hcollected
  omega

/-- A set leaves of another no more runs than both have together. -/
theorem length_diff_le (xs ys : Runs) : (diff xs ys).length ≤ xs.length + ys.length := by
  have hturn (x y : Interval) : (trim.turn x y).settled.length ≤ 1 := by
    simp only [trim, trimTurn]
    split_ifs <;> simp
  exact Walk.length_run_le hturn xs ys

/-! ### Covers -/

/-- **A canonical list is a shortest cover.** Any intervals that hold the same integers, in any
order and with any overlaps, make up this list when they are added one by one. -/
theorem Canonical.length_le (h : xs.Canonical) {rs : List Interval}
    (hrs : ∀ v, Holds rs v ↔ xs.Holds v) : xs.length ≤ rs.countP fun r => ¬ r.IsEmpty := by
  have hxs : xs = ofIntervals rs :=
    h.ext (canonical_ofIntervals rs) fun v => (hrs v).symm.trans holds_ofIntervals.symm
  have hcount := length_insertAll_le [] rs
  rwa [List.length_nil, Nat.zero_add, ← ofIntervals, ← hxs] at hcount

end Runs

end SymbolSets
