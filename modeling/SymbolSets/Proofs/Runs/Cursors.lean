import Mathlib.Tactic.SplitIfs
import SymbolSets.Proofs.Runs.InPlace

/-!
# Loops by two cursors

The common part and the difference of two rows are found by loops. Each loop has a cursor on either
row, looks at the two runs under the cursors, and goes on until one of the cursors is at the end.
The loop for the common part leaves the two rows as they are and collects into a third one. The loop
for the difference edits the left row, which may become longer or shorter under its cursor.

Nothing in a loop makes it end: a turn in which no case applied would be made again and again. That
it ends is due to the cases, which are all the positions that two runs can have to each other, and
in each of which exactly one run less is ahead of the cursors.

## Main definitions

* `StopsAfter`: a loop stops after a number of turns.
* `Cursors`, `Cursors.heads?`, `Cursors.remaining`: the state of a loop, the runs under the cursors,
  and the number of runs from the cursors on.
* `Cursors.overlapStep`, `Cursors.trimStep`: one turn of either loop.
* `Cursors.overlapStepBy`: one turn of the loop for the common part, with any way to put what is
  found into the third row.

## Main results

* `Cursors.exists_stopsAfter_overlapStepBy`: what is found does not depend on how it is put there.
* `Cursors.overlapStep_advances`: a turn for the common part moves one cursor by one.
* `Cursors.remaining_trimStep`: a turn for the difference leaves one run less ahead.
* `Cursors.loops_stop`: the loops stop in time, and with the results of the walks.
-/

namespace SymbolSets

/-! ### Loops -/

section Loop

variable {α β : Type} {step : α → Option α} {k : Nat} {s t : α}

/-- From `s`, the loop that goes on by `step` makes `k` turns and stops in `t`. -/
inductive StopsAfter (step : α → Option α) : Nat → α → α → Prop
  | stop {s : α} : step s = none → StopsAfter step 0 s s
  | turn {k : Nat} {s t u : α} : step s = some t → StopsAfter step k t u →
      StopsAfter step (k + 1) s u

namespace StopsAfter

theorem step_eq_none (h : StopsAfter step k s t) : step t = none := by
  induction h with
  | stop hstop => exact hstop
  | turn _ _ ih => exact ih

/-- What no turn changes is not changed by the loop. -/
theorem eq_of_forall_step {f : α → β} (hf : ∀ {s t}, step s = some t → f t = f s)
    (h : StopsAfter step k s t) : f t = f s := by
  induction h with
  | stop _ => rfl
  | turn hturn _ ih => exact ih.trans (hf hturn)

end StopsAfter

/-- **A loop stops if each turn makes a measure one less.** If a turn needs at least two, one is
left at the end, and there are fewer turns than the measure says. -/
theorem exists_stopsAfter {μ : α → Nat} (hless : ∀ {s t}, step s = some t → μ t + 1 = μ s)
    (hneeds : ∀ {s t}, step s = some t → 2 ≤ μ s) (s : α) :
    ∃ k t, StopsAfter step k s t ∧ k ≤ μ s - 1 := by
  -- the measure is that of the state from which the loop goes on
  induction hs : μ s generalizing s with
  | zero =>
    cases hstep : step s with
    | none => exact ⟨0, s, .stop hstep, Nat.le_refl 0⟩
    | some t => exact absurd ((hless hstep).trans hs) (Nat.succ_ne_zero _)
  | succ n ih =>
    cases hstep : step s with
    | none => exact ⟨0, s, .stop hstep, Nat.zero_le _⟩
    | some t =>
      have ht : μ t = n := Nat.succ.inj ((hless hstep).trans hs)
      have htwo : 2 ≤ n + 1 := hs ▸ hneeds hstep
      obtain ⟨k, u, hu, hk⟩ := ih t ht
      exact ⟨k + 1, u, .turn hstep hu, by omega⟩

end Loop

/-! ### The state of the loops -/

/-- What changes in a loop over two rows: one row, and the positions of the cursors. -/
structure Cursors where
  row : Runs
  left : Nat
  right : Nat

namespace Cursors

variable {xs ys : Runs} {s t : Cursors} {x y : Interval}

/-- The runs under the cursors. The loop ends when there are not two of them. -/
def heads? (xs ys : Runs) (s : Cursors) : Option (Interval × Interval) :=
  if h : s.left < xs.length ∧ s.right < ys.length then some (xs[s.left], ys[s.right]) else none

/-- The number of runs from the cursors on. -/
def remaining (xs ys : Runs) (s : Cursors) : Nat :=
  (xs.length - s.left) + (ys.length - s.right)

theorem heads?_eq_some_iff : s.heads? xs ys = some (x, y) ↔
    ∃ (hx : s.left < xs.length) (hy : s.right < ys.length), xs[s.left] = x ∧ ys[s.right] = y := by
  rw [heads?]
  split_ifs with h
  · simp [h]
  · refine iff_of_false nofun ?_
    rintro ⟨hx, hy, -⟩
    exact h ⟨hx, hy⟩

theorem heads?_eq_none_iff :
    s.heads? xs ys = none ↔ xs.length ≤ s.left ∨ ys.length ≤ s.right := by
  rw [heads?, dite_eq_right_iff]
  simp only [reduceCtorEq, imp_false]
  omega

/-- A turn needs a run on either side. -/
theorem two_le_remaining {move : Interval × Interval → Cursors}
    (h : (s.heads? xs ys).map move = some t) : 2 ≤ s.remaining xs ys := by
  obtain ⟨⟨x, y⟩, hheads, -⟩ := Option.map_eq_some_iff.1 h
  obtain ⟨hx, hy, -⟩ := heads?_eq_some_iff.1 hheads
  rw [remaining]
  omega

/-! ### The common part -/

/-- What the loop for the common part does about the runs `x` and `y` under the cursors. If no case
applied it would do nothing. -/
def overlapMove (x y : Interval) (s : Cursors) : Cursors :=
  if x.Precedes y then { s with left := s.left + 1 }
  else if y.Precedes x then { s with right := s.right + 1 }
  else if x.Covers y then
    { s with row := Runs.insert (x.inter y) s.row, right := s.right + 1 }
  else if y.Covers x then
    { s with row := Runs.insert (x.inter y) s.row, left := s.left + 1 }
  else if ¬ x.Disjoint y then
    let collected := { s with row := Runs.insert (x.inter y) s.row }
    if x.StartsInside y then { collected with right := s.right + 1 }
    else if y.StartsInside x then { collected with left := s.left + 1 }
    else collected
  else s

/-- One turn of the loop for the common part of `xs` and `ys`, which is collected in a row. -/
def overlapStep (xs ys : Runs) (s : Cursors) : Option Cursors :=
  (s.heads? xs ys).map fun (x, y) => s.overlapMove x y

/-- The same move with any other way to put the interval that is found into the row. -/
def overlapMoveBy (put : Interval → Runs → Runs) (x y : Interval) (s : Cursors) : Cursors :=
  if x.Precedes y then { s with left := s.left + 1 }
  else if y.Precedes x then { s with right := s.right + 1 }
  else if x.Covers y then { s with row := put (x.inter y) s.row, right := s.right + 1 }
  else if y.Covers x then { s with row := put (x.inter y) s.row, left := s.left + 1 }
  else if ¬ x.Disjoint y then
    let collected := { s with row := put (x.inter y) s.row }
    if x.StartsInside y then { collected with right := s.right + 1 }
    else if y.StartsInside x then { collected with left := s.left + 1 }
    else collected
  else s

/-- One turn of the loop that puts what is found into the row by `put`. -/
def overlapStepBy (put : Interval → Runs → Runs) (xs ys : Runs) (s : Cursors) : Option Cursors :=
  (s.heads? xs ys).map fun (x, y) => s.overlapMoveBy put x y

theorem overlapStepBy_insert : overlapStepBy Runs.insert = overlapStep :=
  rfl

section

variable (put : Interval → Runs → Runs)

theorem overlapStepBy_eq_some_iff : overlapStepBy put xs ys s = some t ↔
    ∃ x y, s.heads? xs ys = some (x, y) ∧ s.overlapMoveBy put x y = t := by
  simp [overlapStepBy]

/-- The loop and the walk tell the same cases apart: what the walk settles is put into the row, and
the cursors pass the heads that the walk uses up. -/
theorem overlapMoveBy_eq (x y : Interval) (s : Cursors) : s.overlapMoveBy put x y =
    ⟨(Runs.overlapTurn x y).settled.foldl (fun row z => put z row) s.row,
      s.left + 1 - (Runs.overlapTurn x y).left.length,
      s.right + 1 - (Runs.overlapTurn x y).right.length⟩ := by
  rw [overlapMoveBy, Runs.overlapTurn]
  split_ifs <;> rfl

/-- A turn moves one cursor by one, and leaves the other where it is. -/
theorem overlapStepBy_advances (h : overlapStepBy put xs ys s = some t) :
    t.left = s.left + 1 ∧ t.right = s.right ∨ t.left = s.left ∧ t.right = s.right + 1 := by
  obtain ⟨x, y, -, rfl⟩ := (overlapStepBy_eq_some_iff put).1 h
  have hstays := Runs.overlapTurn_one_stays x y
  simp only [overlapMoveBy_eq]
  omega

theorem remaining_overlapStepBy (h : overlapStepBy put xs ys s = some t) :
    t.remaining xs ys + 1 = s.remaining xs ys := by
  obtain ⟨x, y, hheads, -⟩ := (overlapStepBy_eq_some_iff put).1 h
  obtain ⟨hx, hy, -⟩ := heads?_eq_some_iff.1 hheads
  have hadvance := overlapStepBy_advances put h
  rw [remaining, remaining]
  omega

/-- What the loop has collected, with what the walk still finds. -/
def overlapResultBy (xs ys : Runs) (s : Cursors) : Runs :=
  (Runs.overlap.run (xs.drop s.left) (ys.drop s.right)).foldl (fun row z => put z row) s.row

/-- What stays of a head is the head or nothing. -/
theorem overlapTurn_stays (x y : Interval) :
    ((Runs.overlapTurn x y).left = [] ∨ (Runs.overlapTurn x y).left = [x]) ∧
      ((Runs.overlapTurn x y).right = [] ∨ (Runs.overlapTurn x y).right = [y]) := by
  rw [Runs.overlapTurn]
  split_ifs <;> simp

/-- A cursor passes a head that is used up, and stays at one that is not. So ahead of it is what
stays of the head, and then what follows. -/
theorem drop_of_stays {i : Nat} (hi : i < xs.length) {stays : Runs}
    (h : stays = [] ∨ stays = [xs[i]]) :
    xs.drop (i + 1 - stays.length) = stays ++ xs.drop (i + 1) := by
  rcases h with rfl | rfl
  · rfl
  · exact List.drop_eq_getElem_cons hi

/-- A turn of the loop is one of the walk. -/
theorem overlapResultBy_step (h : overlapStepBy put xs ys s = some t) :
    t.overlapResultBy put xs ys = s.overlapResultBy put xs ys := by
  obtain ⟨x, y, hheads, rfl⟩ := (overlapStepBy_eq_some_iff put).1 h
  obtain ⟨hx, hy, rfl, rfl⟩ := heads?_eq_some_iff.1 hheads
  have hstays := overlapTurn_stays xs[s.left] ys[s.right]
  rw [overlapResultBy, overlapResultBy, List.drop_eq_getElem_cons hx, List.drop_eq_getElem_cons hy,
    Walk.run, overlapMoveBy_eq, drop_of_stays hx hstays.1, drop_of_stays hy hstays.2]
  exact List.foldl_append.symm

theorem overlapResultBy_stop (h : overlapStepBy put xs ys s = none) :
    s.overlapResultBy put xs ys = s.row := by
  rw [overlapStepBy, Option.map_eq_none_iff, heads?_eq_none_iff] at h
  have hnone : Runs.overlap.run (xs.drop s.left) (ys.drop s.right) = [] := by
    rcases h with hleft | hright
    · rw [List.drop_eq_nil_of_le hleft, Walk.run]
    · rw [List.drop_eq_nil_of_le hright]
      cases xs.drop s.left <;> rw [Walk.run]
      rfl
  rw [overlapResultBy, hnone]
  rfl

/-- **What the loop finds.** However it is put into the row, the loop finds what the walk settles,
and in the same order. -/
theorem exists_stopsAfter_overlapStepBy (xs ys row : Runs) :
    ∃ k t, StopsAfter (overlapStepBy put xs ys) k ⟨row, 0, 0⟩ t ∧
      k ≤ xs.length + ys.length - 1 ∧
      t.row = (Runs.overlap.run xs ys).foldl (fun row z => put z row) row := by
  obtain ⟨k, t, ht, hk⟩ :=
    exists_stopsAfter (remaining_overlapStepBy put) two_le_remaining ⟨row, 0, 0⟩
  refine ⟨k, t, ht, hk, ?_⟩
  rw [← overlapResultBy_stop put ht.step_eq_none,
    ht.eq_of_forall_step (overlapResultBy_step put)]
  rfl

end

/-- **A turn for the common part moves one cursor by one,** and leaves the other where it is. -/
theorem overlapStep_advances (h : overlapStep xs ys s = some t) :
    t.left = s.left + 1 ∧ t.right = s.right ∨ t.left = s.left ∧ t.right = s.right + 1 :=
  overlapStepBy_advances Runs.insert h

theorem remaining_overlapStep (h : overlapStep xs ys s = some t) :
    t.remaining xs ys + 1 = s.remaining xs ys :=
  remaining_overlapStepBy Runs.insert h

/-- What the loop has collected, with what the walk still adds to it. -/
def overlapResult (xs ys : Runs) (s : Cursors) : Runs :=
  Runs.insertAll s.row (Runs.overlap.run (xs.drop s.left) (ys.drop s.right))

theorem overlapResult_step (h : overlapStep xs ys s = some t) :
    t.overlapResult xs ys = s.overlapResult xs ys :=
  overlapResultBy_step Runs.insert h

theorem overlapResult_stop (h : overlapStep xs ys s = none) : s.overlapResult xs ys = s.row :=
  overlapResultBy_stop Runs.insert h

/-! ### The difference -/

/-- What the loop for the difference does about the run `x` of its row and the run `y`, which are
under the cursors. -/
def trimMove (x y : Interval) (s : Cursors) : Cursors :=
  if y.hi < x.lo then { s with right := s.right + 1 }
  else if x.hi < y.lo then { s with left := s.left + 1 }
  else if x.lo < y.lo then
    if y.hi < x.hi then
      let parts : Runs := [⟨x.lo, y.lo - 1⟩, ⟨y.hi + 1, x.hi⟩]
      ⟨List.take s.left s.row ++ parts ++ List.drop (s.left + 1) s.row, s.left + 1, s.right + 1⟩
    else { s with row := s.row.set s.left ⟨x.lo, y.lo - 1⟩, left := s.left + 1 }
  else
    if y.hi < x.hi then
      { s with row := s.row.set s.left ⟨y.hi + 1, x.hi⟩, right := s.right + 1 }
    else { s with row := s.row.eraseIdx s.left }

/-- One turn of the loop that leaves of a row what is not in `ys`. -/
def trimStep (ys : Runs) (s : Cursors) : Option Cursors :=
  (s.heads? s.row ys).map fun (x, y) => s.trimMove x y

theorem trimStep_eq_some_iff : trimStep ys s = some t ↔
    ∃ x y, s.heads? s.row ys = some (x, y) ∧ s.trimMove x y = t := by
  simp [trimStep]

/-- **A turn for the difference leaves one run less ahead,** though the row may become longer. -/
theorem remaining_trimStep (h : trimStep ys s = some t) :
    t.remaining t.row ys + 1 = s.remaining s.row ys := by
  obtain ⟨x, y, hheads, rfl⟩ := trimStep_eq_some_iff.1 h
  obtain ⟨hx, hy, -⟩ := heads?_eq_some_iff.1 hheads
  simp only [remaining, trimMove]
  -- a split makes the row one longer, but then both cursors move
  split_ifs <;> simp only [List.length_append, List.length_take, List.length_drop, List.length_cons,
      List.length_nil, List.length_set, List.length_eraseIdx_of_lt hx] <;> omega

theorem trimInPlace_step (h : trimStep ys s = some t) :
    Runs.trimInPlace ys t.row t.left t.right = Runs.trimInPlace ys s.row s.left s.right := by
  obtain ⟨x, y, hheads, rfl⟩ := trimStep_eq_some_iff.1 h
  obtain ⟨hx, hy, rfl, rfl⟩ := heads?_eq_some_iff.1 hheads
  rw [Runs.trimInPlace.eq_def ys s.row, dif_pos ⟨hx, hy⟩]
  simp only [trimMove]
  split_ifs <;> rfl

theorem trimInPlace_stop (h : trimStep ys s = none) :
    Runs.trimInPlace ys s.row s.left s.right = s.row := by
  rw [trimStep, Option.map_eq_none_iff, heads?_eq_none_iff] at h
  rw [Runs.trimInPlace, dif_neg]
  omega

/-! ### Both loops -/

/-- **The loops stop,** whatever the two rows are. A turn for the common part moves exactly one of
the cursors, and by one. A turn for the difference leaves exactly one run less from the cursors on,
though it may edit the row. So the number of turns is less than that of the runs of both rows, if
there are any. The row that is left at the end is the common part or the difference. -/
theorem loops_stop (xs ys : Runs) :
    (∀ {s t}, overlapStep xs ys s = some t →
      t.left = s.left + 1 ∧ t.right = s.right ∨ t.left = s.left ∧ t.right = s.right + 1) ∧
    (∃ k t, StopsAfter (overlapStep xs ys) k ⟨[], 0, 0⟩ t ∧ k ≤ xs.length + ys.length - 1 ∧
      t.row = Runs.inter xs ys) ∧
    (∀ {s t}, trimStep ys s = some t → t.remaining t.row ys + 1 = s.remaining s.row ys) ∧
    ∃ k t, StopsAfter (trimStep ys) k ⟨xs, 0, 0⟩ t ∧ k ≤ xs.length + ys.length - 1 ∧
      t.row = Runs.diff xs ys := by
  refine ⟨overlapStep_advances, ?_, remaining_trimStep, ?_⟩
  · obtain ⟨k, t, ht, hk⟩ :=
      exists_stopsAfter remaining_overlapStep two_le_remaining ⟨[], 0, 0⟩
    refine ⟨k, t, ht, hk, ?_⟩
    rw [← overlapResult_stop ht.step_eq_none, ht.eq_of_forall_step overlapResult_step]
    rfl
  · obtain ⟨k, t, ht, hk⟩ :=
      exists_stopsAfter remaining_trimStep two_le_remaining ⟨xs, 0, 0⟩
    refine ⟨k, t, ht, hk, ?_⟩
    rw [← trimInPlace_stop ht.step_eq_none, ht.eq_of_forall_step trimInPlace_step]
    exact Runs.trimInPlace_eq_diff xs ys

/-- Two runs with one integer in common, where only the one that ends first is passed, and a run
that is split in two. -/
theorem loops_stop_split :
    (overlapStep [⟨0, 115⟩] [⟨115, 200⟩] ⟨[], 0, 0⟩ = some ⟨[⟨115, 115⟩], 1, 0⟩ ∧
      (1 = 0 + 1 ∧ 0 = 0 ∨ 1 = 0 ∧ 0 = 0 + 1)) ∧
    trimStep [⟨3, 5⟩] ⟨[⟨0, 9⟩], 0, 0⟩ = some ⟨[⟨0, 2⟩, ⟨6, 9⟩], 1, 1⟩ ∧
      remaining [⟨0, 2⟩, ⟨6, 9⟩] [⟨3, 5⟩] ⟨[⟨0, 2⟩, ⟨6, 9⟩], 1, 1⟩ + 1 =
        remaining [⟨0, 9⟩] [⟨3, 5⟩] ⟨[⟨0, 9⟩], 0, 0⟩ := by
  have hoverlap : overlapStep [⟨0, 115⟩] [⟨115, 200⟩] ⟨[], 0, 0⟩ = some ⟨[⟨115, 115⟩], 1, 0⟩ := by
    rfl
  have htrim : trimStep [⟨3, 5⟩] ⟨[⟨0, 9⟩], 0, 0⟩ = some ⟨[⟨0, 2⟩, ⟨6, 9⟩], 1, 1⟩ := by rfl
  obtain ⟨hadvances, -⟩ := loops_stop [⟨0, 115⟩] [⟨115, 200⟩]
  obtain ⟨-, -, hremaining, -⟩ := loops_stop [⟨0, 9⟩] [⟨3, 5⟩]
  exact ⟨⟨hoverlap, hadvances hoverlap⟩, htrim, hremaining htrim⟩

end Cursors

end SymbolSets
