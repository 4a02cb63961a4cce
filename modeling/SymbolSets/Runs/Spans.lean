import SymbolSets.Interval.Span
import SymbolSets.Runs.Erase
import SymbolSets.Runs.Walk

/-!
# Lists of runs as they are written

A set is kept by a list of intervals, whose bounds are written as they were given. The loops over
such lists compare integers, so they do to the intervals what the loops over runs do. What they put
into a list has the bounds of the intervals that it comes from, or plain ones: where a bound is
common to two intervals the first one gives it, which is the interval that is added, or the left one
of two lists.

## Main definitions

* `Span.place`, `Span.insert`: adding an interval.
* `Span.erase`: removing an integer.
* `Span.overlap`, `Span.trim`: the walks over two lists.

## Main results

* `Span.map_interval_insert`, `Span.map_interval_erase`, `Span.map_interval_overlap_run`,
  `Span.map_interval_trim_run`: what the loops do to the intervals.
-/

namespace SymbolSets

/-- A turn with its intervals in another form. -/
def Turn.map {α β : Type} (f : α → β) (t : Turn α) : Turn β :=
  ⟨t.settled.map f, t.left.map f, t.right.map f⟩

theorem Turn.map_mk {α β : Type} (f : α → β) (settled left right : List α) :
    (Turn.mk settled left right).map f = ⟨settled.map f, left.map f, right.map f⟩ :=
  rfl

/-- A walk in one form does what a walk in another form does, if its turns do. -/
theorem Walk.map_run {α β : Type} {w : Walk α} {w' : Walk β} {f : α → β}
    (hturn : ∀ x y, (w.turn x y).map f = w'.turn (f x) (f y)) (hkeeps : w.keepsLeft = w'.keepsLeft)
    (xs ys : List α) : (w.run xs ys).map f = w'.run (xs.map f) (ys.map f) := by
  induction xs, ys using Walk.run.induct w with
  | case1 ys => rw [run, List.map_nil, run]
  | case2 x xs keeps =>
    rw [run, if_pos keeps, List.map_cons, List.map_nil, run, if_pos (hkeeps ▸ keeps)]
  | case3 x xs drops =>
    rw [run, if_neg drops, List.map_cons, List.map_nil, run, if_neg (hkeeps ▸ drops)]
  | case4 x xs y ys ih =>
    rw [run, List.map_append, ih, List.map_cons, List.map_cons, run, ← hturn, List.map_append,
      List.map_append]
    rfl

namespace Span

/-! ### Additions and removals -/

/-- `r` in front of the runs, merged with the leading ones that it touches. -/
def absorb (r : Span) : List Span → List Span
  | [] => [r]
  | x :: xs => if r.interval.Touches x.interval then absorb (r.hull x) xs else r :: x :: xs

/-- The place of a non-empty interval `r` among ascending runs. A run that is equal to `r` stays as
it is written. -/
def place (r : Span) : List Span → List Span
  | [] => [r]
  | x :: xs =>
    if r.interval = x.interval then x :: xs
    else if r.interval.Touches x.interval then absorb (r.hull x) xs
    else if r.interval.Precedes x.interval then r :: x :: xs
    else x :: place r xs

/-- Adds every integer of `r`. An empty interval adds nothing. -/
def insert (r : Span) (xs : List Span) : List Span :=
  if r.interval.IsEmpty then xs else place r xs

/-- Removes `v` from ascending runs. The search ends at the first run that starts past `v`. -/
def erase (v : Int) : List Span → List Span
  | [] => []
  | x :: xs =>
    if v < x.lo.toInt then x :: xs
    else if v = x.lo.toInt ∧ v = x.hi.toInt then xs
    else if v = x.lo.toInt then x.dropTo (x.lo.toInt + 1) :: xs
    else if v = x.hi.toInt then x.takeTo (x.hi.toInt - 1) :: xs
    else if v < x.hi.toInt then x.takeTo (v - 1) :: x.dropTo (v + 1) :: xs
    else x :: erase v xs

theorem map_interval_absorb (r : Span) (xs : List Span) :
    (absorb r xs).map interval = Runs.absorb r.interval (xs.map interval) := by
  induction xs generalizing r with
  | nil => rfl
  | cons x xs ih =>
    rw [absorb, List.map_cons, Runs.absorb]
    split
    · rw [ih, interval_hull]
    · rfl

theorem map_interval_place (r : Span) (xs : List Span) :
    (place r xs).map interval = Runs.place r.interval (xs.map interval) := by
  induction xs with
  | nil => rfl
  | cons x xs ih =>
    rw [place, List.map_cons, Runs.place]
    split
    · rfl
    · split
      · rw [map_interval_absorb, interval_hull]
      · split
        · rfl
        · rw [List.map_cons, ih]

/-- **An addition** is one of the interval, however it is written. -/
theorem map_interval_insert (r : Span) (xs : List Span) :
    (insert r xs).map interval = Runs.insert r.interval (xs.map interval) := by
  rw [insert, Runs.insert]
  split
  · rfl
  · exact map_interval_place r xs

/-- **A removal** takes the integer out of the intervals. -/
theorem map_interval_erase (v : Int) (xs : List Span) :
    (erase v xs).map interval = Runs.erase v (xs.map interval) := by
  induction xs with
  | nil => rfl
  | cons x xs ih =>
    rw [erase, List.map_cons, Runs.erase, ← ih]
    simp only [apply_ite (List.map interval), List.map_cons, interval_dropTo, interval_takeTo]
    rfl

/-! ### Walks -/

/-- Two heads compared for their common part, which is settled. The head that ends first is used
up. -/
def overlapTurn (x y : Span) : Turn Span :=
  if x.interval.Precedes y.interval then ⟨[], [], [y]⟩
  else if y.interval.Precedes x.interval then ⟨[], [x], []⟩
  else if x.interval.Covers y.interval then ⟨[x.inter y], [x], []⟩
  else if y.interval.Covers x.interval then ⟨[x.inter y], [], [y]⟩
  else if ¬ x.interval.Disjoint y.interval then
    if x.interval.StartsInside y.interval then ⟨[x.inter y], [x], []⟩
    else if y.interval.StartsInside x.interval then ⟨[x.inter y], [], [y]⟩
    else ⟨[x.inter y], [x], [y]⟩
  else ⟨[], [x], [y]⟩

/-- Two heads compared for what the right one leaves of the left one. -/
def trimTurn (x y : Span) : Turn Span :=
  if y.hi.toInt < x.lo.toInt then ⟨[], [x], []⟩
  else if x.hi.toInt < y.lo.toInt then ⟨[x], [], [y]⟩
  else if x.lo.toInt < y.lo.toInt then
    if y.hi.toInt < x.hi.toInt then
      ⟨[x.takeTo (y.lo.toInt - 1)], [x.dropTo (y.hi.toInt + 1)], []⟩
    else ⟨[x.takeTo (y.lo.toInt - 1)], [], [y]⟩
  else
    if y.hi.toInt < x.hi.toInt then ⟨[], [x.dropTo (y.hi.toInt + 1)], []⟩
    else ⟨[], [], [y]⟩

theorem map_interval_overlapTurn (x y : Span) :
    (overlapTurn x y).map interval = Runs.overlapTurn x.interval y.interval := by
  rw [overlapTurn, Runs.overlapTurn]
  simp only [apply_ite (Turn.map interval), Turn.map_mk, List.map_cons, List.map_nil,
    interval_inter]

theorem map_interval_trimTurn (x y : Span) :
    (trimTurn x y).map interval = Runs.trimTurn x.interval y.interval := by
  rw [trimTurn, Runs.trimTurn]
  simp only [apply_ite (Turn.map interval), Turn.map_mk, List.map_cons, List.map_nil,
    interval_dropTo, interval_takeTo]
  rfl

/-- The walk that settles the common part of two lists. -/
def overlap : Walk Span where
  turn := overlapTurn
  one_stays x y := by
    have hstays := Runs.overlapTurn_one_stays x.interval y.interval
    rw [← map_interval_overlapTurn] at hstays
    simpa only [Turn.map, List.length_map] using hstays
  keepsLeft := false

/-- The walk that settles what the right list leaves of the left one. -/
def trim : Walk Span where
  turn := trimTurn
  one_stays x y := by
    have hstays := Runs.trimTurn_one_stays x.interval y.interval
    rw [← map_interval_trimTurn] at hstays
    simpa only [Turn.map, List.length_map] using hstays
  keepsLeft := true

/-- **The walk for the common part** is one over the intervals. -/
theorem map_interval_overlap_run (xs ys : List Span) :
    (overlap.run xs ys).map interval = Runs.overlap.run (xs.map interval) (ys.map interval) := by
  have hkeeps : overlap.keepsLeft = Runs.overlap.keepsLeft := rfl
  exact Walk.map_run map_interval_overlapTurn hkeeps xs ys

/-- **The walk for the difference** is one over the intervals. -/
theorem map_interval_trim_run (xs ys : List Span) :
    (trim.run xs ys).map interval = Runs.trim.run (xs.map interval) (ys.map interval) := by
  have hkeeps : trim.keepsLeft = Runs.trim.keepsLeft := rfl
  exact Walk.map_run map_interval_trimTurn hkeeps xs ys

end Span

end SymbolSets
