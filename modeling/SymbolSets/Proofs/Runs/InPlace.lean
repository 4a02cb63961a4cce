import Mathlib.Tactic.SplitIfs
import SymbolSets.Runs.Walk

/-!
# The difference in place

The difference can be computed on a single row, which starts as the left set and ends as the result.
A cursor moves over the row while the run at the cursor is edited: it is split in two, trimmed on
one side, or taken out, and then the next run slides into its slot. A second cursor moves over the
right set, which stays as it is.

What lies before the cursors is done with, so the two rows from their cursors on are the two lists
whose heads a walk compares. A turn of the walk says what the run at the cursor is replaced by, and
how far the cursors move.

## Main definitions

* `Runs.trimInPlace`: the difference by two cursors.

## Main results

* `Runs.trimInPlace_turn`: one turn in place.
* `Runs.trimInPlace_append`: the rows from their cursors on are walked over.
* `Runs.trimInPlace_eq_diff`: the row ends as the difference.
-/

namespace SymbolSets.Runs

/-- What the runs of `ys` leave of the row `xs`, when everything before the cursor `i` of `xs` and
before the cursor `j` of `ys` is done with. -/
def trimInPlace (ys xs : Runs) (i j : Nat) : Runs :=
  if h : i < xs.length ∧ j < ys.length then
    let x := xs[i]
    let y := ys[j]
    if y.hi < x.lo then trimInPlace ys xs i (j + 1)
    else if x.hi < y.lo then trimInPlace ys xs (i + 1) j
    else if x.lo < y.lo then
      if y.hi < x.hi then
        let parts : Runs := [⟨x.lo, y.lo - 1⟩, ⟨y.hi + 1, x.hi⟩]
        trimInPlace ys (List.take i xs ++ parts ++ List.drop (i + 1) xs) (i + 1) (j + 1)
      else trimInPlace ys (xs.set i ⟨x.lo, y.lo - 1⟩) (i + 1) j
    else
      if y.hi < x.hi then trimInPlace ys (xs.set i ⟨y.hi + 1, x.hi⟩) i (j + 1)
      else trimInPlace ys (xs.eraseIdx i) i j
  else xs
-- a split makes the row one longer, but then both cursors move
termination_by (xs.length - i) + (ys.length - j)
decreasing_by
  · omega
  · omega
  · simp only [List.length_append, List.length_take, List.length_drop, List.length_cons,
      List.length_nil]
    omega
  · simp only [List.length_set]
    omega
  · simp only [List.length_set]
    omega
  · simp only [List.length_eraseIdx]
    grind

/-- **One turn in place.** The run at the cursor is replaced by what is settled and what stays of
it. Then the cursors stand behind what is settled and behind what is used up. -/
theorem trimInPlace_turn (done passed xs ys : Runs) (x y : Interval) :
    trimInPlace (passed ++ y :: ys) (done ++ x :: xs) done.length passed.length =
      trimInPlace (passed ++ y :: ys)
        (done ++ (trimTurn x y).settled ++ ((trimTurn x y).left ++ xs))
        (done.length + (trimTurn x y).settled.length)
        (passed.length + 1 - (trimTurn x y).right.length) := by
  have hx : done.length < (done ++ x :: xs).length := by simp
  have hy : passed.length < (passed ++ y :: ys).length := by simp
  rw [trimInPlace, dif_pos ⟨hx, hy⟩]
  simp only [trimTurn, List.getElem_append_right (Nat.le_refl _), Nat.sub_self,
    List.getElem_cons_zero, List.set_append_right _ _ (Nat.le_refl _), List.set_cons_zero,
    List.eraseIdx_append_of_length_le (Nat.le_refl _), List.eraseIdx_cons_zero]
  split_ifs <;> simp

/-- The right head stays as it is, or it is used up. -/
theorem right_trimTurn (x y : Interval) :
    (trimTurn x y).right = [] ∨ (trimTurn x y).right = [y] := by
  rw [trimTurn]
  split_ifs <;> simp

/-- **The rows from their cursors on are walked over.** The induction is on the walk; what a turn
settles is done with, and a head that is used up is passed. -/
theorem trimInPlace_append (done passed xs ys : Runs) :
    trimInPlace (passed ++ ys) (done ++ xs) done.length passed.length = done ++ trim.run xs ys := by
  induction xs, ys using Walk.run.induct trim generalizing done passed with
  | case1 ys => rw [trimInPlace, dif_neg (by simp), Walk.run]
  | case2 x xs keeps => rw [trimInPlace, dif_neg (by simp), Walk.run, if_pos keeps]
  | case3 x xs drops => exact absurd rfl drops
  | case4 x xs y ys ih =>
    rw [trimInPlace_turn, Walk.run, ← List.append_assoc]
    simp only [trim] at ih ⊢
    rcases right_trimTurn x y with hright | hright
    · rw [hright] at ih ⊢
      simpa using ih (done ++ (trimTurn x y).settled) (passed ++ [y])
    · rw [hright] at ih ⊢
      simpa using ih (done ++ (trimTurn x y).settled) passed

/-- **The row ends as the difference,** whatever the lists are. -/
theorem trimInPlace_eq_diff (xs ys : Runs) : trimInPlace ys xs 0 0 = diff xs ys :=
  trimInPlace_append [] [] xs ys

end SymbolSets.Runs
