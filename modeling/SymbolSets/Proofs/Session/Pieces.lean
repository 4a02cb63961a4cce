import SymbolSets.Proofs.Runs.Cursors
import SymbolSets.Proofs.Session.Walks

/-!
# The pieces of an intersection

The loop for an intersection adds what two runs have in common to the row that it collects, as any
interval is added to a set: it is compared with the runs of the row in turn, until its place among
them is found or the row ends. None of these comparisons ever finds anything. Each piece starts past
the end of the one before it, and not just past it, since two integers in a row that both sets hold
lie in one run of each set. So a piece always comes to the end of the row, and the loop could put it
there at once.

## Main definitions

* `Interval.Passes`: no comparison holds an interval up at a run.
* `Runs.putLast`: a row with one more interval at its end.

## Main results

* `Runs.insert_eq_putLast`: an interval behind all runs is put at the end.
* `Runs.inter_eq_run`: the intersection of two sets is the row of what the walk settles.
* `Store.intersection_pieces`: the pieces of an intersection are its runs.
-/

namespace SymbolSets

/-! ### To the end of a row -/

/-- An interval that is compared with the run `x` goes on to the run after it. -/
def Interval.Passes (r x : Interval) : Prop :=
  r ≠ x ∧ ¬ r.Touches x ∧ ¬ r.Precedes x

/-- An interval that leaves a gap behind a run goes on past it. -/
theorem Interval.passes_of_lt {r x : Interval} (hr : r.lo ≤ r.hi) (hx : x.lo ≤ x.hi)
    (h : x.hi + 1 < r.lo) : r.Passes x := by
  refine ⟨?_, ?_, ?_⟩
  · rintro rfl
    omega
  · rw [touches_iff hr hx]
    omega
  · simp only [Precedes]
    omega

namespace Runs

variable {r : Interval} {xs ys : Runs}

/-- The row with `z` at its end, whatever is in the row. -/
def putLast (z : Interval) (row : Runs) : Runs :=
  row ++ [z]

/-- The induction is on the runs that are passed. -/
theorem place_eq_putLast (h : ∀ x ∈ xs, r.Passes x) : place r xs = putLast r xs := by
  induction xs with
  | nil => rfl
  | cons x xs ih =>
    obtain ⟨hne, htouches, hprecedes⟩ := h x List.mem_cons_self
    rw [place, if_neg hne, if_neg htouches, if_neg hprecedes,
      ih fun y hy => h y (List.mem_cons_of_mem x hy)]
    rfl

/-- **An interval that passes all runs is put at the end.** -/
theorem insert_eq_putLast (hr : ¬ r.IsEmpty) (h : ∀ x ∈ xs, r.Passes x) :
    insert r xs = putLast r xs := by
  rw [insert, if_neg hr, place_eq_putLast h]

/-- Put at the end one after the other, the intervals stand in the row as they came. -/
theorem foldl_putLast (rs row : Runs) : rs.foldl (fun row z => putLast z row) row = row ++ rs := by
  induction rs generalizing row with
  | nil => exact row.append_nil.symm
  | cons r rs ih => rw [List.foldl_cons, ih, putLast, List.append_assoc, List.singleton_append]

/-- What stands before a run of a canonical list is canonical, and the run passes it. -/
theorem Canonical.passes {z : Interval} (h : Canonical (xs ++ z :: ys)) :
    xs.Canonical ∧ ¬ z.IsEmpty ∧ ∀ x ∈ xs, z.Passes x := by
  obtain ⟨hxs, hzs, hgap⟩ := canonical_append.1 h
  have hz : z.lo ≤ z.hi := hzs.lo_le_hi List.mem_cons_self
  exact ⟨hxs, Int.not_lt.2 hz, fun x hx =>
    Interval.passes_of_lt hz (hxs.lo_le_hi hx) (hgap x hx z List.mem_cons_self)⟩

/-- **The intersection of two sets is the row of its pieces.** -/
theorem inter_eq_run (hxs : xs.Canonical) (hys : ys.Canonical) :
    inter xs ys = overlap.run xs ys :=
  ofIntervals_eq_self (canonical_overlap_run xs ys hxs hys)

end Runs

/-! ### The loop for an intersection -/

variable {σ : Store} {i j : Nat} {s t : StoredRuns}

/-- **The pieces of an intersection are its runs.** The loop over two stored sets finds some pieces,
which do not depend on how they are put into the row, or on what is in it before. None of them is
empty, they ascend, and between two of them at least one integer is missing. When a piece is added,
the row consists of the pieces before it. The piece passes all of them, so it comes to stand at the
end. So the request for the intersection answers the pieces, the loop that adds them collects them
as they are, and so does the loop that puts each of them at the end without comparing it to any
run. -/
theorem Store.intersection_pieces (hσ : σ.Reachable) (hs : σ.runs[i]? = some s)
    (ht : σ.runs[j]? = some t) :
    ∃ pieces : Runs,
      (∀ (put : Interval → Runs → Runs) (row : Runs), ∃ k c,
        StopsAfter (Cursors.overlapStepBy put s.runs t.runs) k ⟨row, 0, 0⟩ c ∧
          c.row = pieces.foldl (fun row z => put z row) row) ∧
      pieces.Canonical ∧
      (∀ before z after, pieces = before ++ z :: after →
        Runs.insertAll [] before = before ∧ ¬ z.IsEmpty ∧ (∀ x ∈ before, z.Passes x) ∧
          Runs.insert z before = Runs.putLast z before) ∧
      (∃ place τ, Request.perform (.derive .inter) σ (.runs i) [.runs j] =
        (τ, ⟨.ok (.runs place), []⟩) ∧ τ.runsAt place = pieces) ∧
      (∃ k c, StopsAfter (Cursors.overlapStep s.runs t.runs) k ⟨[], 0, 0⟩ c ∧ c.row = pieces) ∧
      ∃ k c, StopsAfter (Cursors.overlapStepBy Runs.putLast s.runs t.runs) k ⟨[], 0, 0⟩ c ∧
        c.row = pieces := by
  have hxs : s.runs.Canonical := hσ.canonical s (Array.mem_of_getElem? hs)
  have hys : t.runs.Canonical := hσ.canonical t (Array.mem_of_getElem? ht)
  have hpieces := Runs.canonical_overlap_run s.runs t.runs hxs hys
  have hfinds (put : Interval → Runs → Runs) (row : Runs) : ∃ k c,
      StopsAfter (Cursors.overlapStepBy put s.runs t.runs) k ⟨row, 0, 0⟩ c ∧
        c.row = (Runs.overlap.run s.runs t.runs).foldl (fun row z => put z row) row := by
    obtain ⟨k, c, hstops, -, hrow⟩ :=
      Cursors.exists_stopsAfter_overlapStepBy put s.runs t.runs row
    exact ⟨k, c, hstops, hrow⟩
  have hperform := Request.perform_inter σ i j
  rw [spelledAt_eq_of_getElem? hs, spelledAt_eq_of_getElem? ht] at hperform
  refine ⟨Runs.overlap.run s.runs t.runs, hfinds, hpieces, fun before z after heq => ?_,
    ⟨_, _, hperform, ?_⟩, ?_, ?_⟩
  · obtain ⟨hbefore, hz, hpasses⟩ := Runs.Canonical.passes (heq ▸ hpieces)
    exact ⟨Runs.ofIntervals_eq_self hbefore, hz, hpasses, Runs.insert_eq_putLast hz hpasses⟩
  · rw [runsAt_addRuns, SpelledRuns.runs_inter, Runs.inter_eq_run hxs hys]
  · obtain ⟨k, c, hstops, hrow⟩ := hfinds Runs.insert []
    rw [Cursors.overlapStepBy_insert] at hstops
    exact ⟨k, c, hstops, hrow.trans (Runs.ofIntervals_eq_self hpieces)⟩
  · obtain ⟨k, c, hstops, hrow⟩ := hfinds Runs.putLast []
    exact ⟨k, c, hstops, hrow.trans (Runs.foldl_putLast _ [])⟩

/-- A run that overlaps three others, and one that ends where another one starts: four pieces. -/
theorem Store.intersection_pieces_shared_bounds :
    let xs : Runs := [⟨1, 9⟩, ⟨12, 15⟩]
    let ys : Runs := [⟨-3, 1⟩, ⟨3, 4⟩, ⟨6, 9⟩, ⟨15, 20⟩]
    let pieces : Runs := [⟨1, 1⟩, ⟨3, 4⟩, ⟨6, 9⟩, ⟨15, 15⟩]
    let σ := Session.run .initial
      [⟨.make .ofIntervals, xs.map fun x => .interval (.int x.lo) (.int x.hi), some "a"⟩,
       ⟨.make .ofIntervals, ys.map fun y => .interval (.int y.lo) (.int y.hi), some "b"⟩]
    (∃ place τ, Request.perform (.derive .inter) σ (.runs 2) [.runs 3] =
        (τ, ⟨.ok (.runs place), []⟩) ∧ τ.runsAt place = pieces) ∧
      ∃ k c, StopsAfter (Cursors.overlapStepBy Runs.putLast xs ys) k ⟨[], 0, 0⟩ c ∧
        c.row = pieces := by
  intro xs ys pieces σ
  have hs : σ.runs[2]? = some ⟨.plain xs, .bool false⟩ := by rfl
  have ht : σ.runs[3]? = some ⟨.plain ys, .bool false⟩ := by rfl
  obtain ⟨found, -, -, -, hperform, -, hlast⟩ := intersection_pieces ⟨_, rfl⟩ hs ht
  obtain ⟨place, τ, hτ, hplace⟩ := hperform
  have hfound : found = pieces := by
    have hown := Request.perform_inter σ 2 3
    rw [hτ] at hown
    cases hown
    rw [← hplace, runsAt_addRuns]
    decide +kernel
  subst hfound
  exact ⟨⟨place, τ, hτ, hplace⟩, hlast⟩

end SymbolSets
