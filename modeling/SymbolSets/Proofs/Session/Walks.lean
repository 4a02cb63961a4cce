import SymbolSets.Proofs.Runs.InPlace
import SymbolSets.Proofs.Session.Fold

/-!
# Intersections and differences of stored sets

Both compare the runs of two stored sets two at a time, with one cursor for each set. The walk for
the intersection settles an interval for each two runs that overlap, and the walk for the difference
edits a copy of the left set under its cursor. Either way the answer is a new set, and the two
operands stay as they are.

## Main results

* `Request.perform_inter`, `Request.perform_diff`, `Store.make_difference`: the requests and the
  walks that answer them.
* `Store.holds_intersection`: intersections.
* `Store.holds_difference`: differences.
-/

namespace SymbolSets

variable {σ : Store} {i j : Nat}

/-! ### Requests that walk over two sets -/

theorem Request.perform_inter (σ : Store) (i j : Nat) :
    Request.perform (.derive .inter) σ (.runs i) [.runs j] =
      ((σ.addRuns ((σ.spelledAt i).inter (σ.spelledAt j))).2, ⟨.ok (.runs σ.runs.size), []⟩) :=
  rfl

theorem Request.perform_diff (σ : Store) (i j : Nat) :
    Request.perform (.derive .diff) σ (.runs i) [.runs j] =
      ((σ.addRuns ((σ.spelledAt i).diff (σ.spelledAt j))).2, ⟨.ok (.runs σ.runs.size), []⟩) :=
  rfl

/-- The difference of two sets is what the left one answers. That an empty left set is not compared
at all makes no difference. -/
theorem Store.make_difference (σ : Store) (i j : Nat) :
    σ.make .difference [.runs i, .runs j] =
      Request.perform (.derive .diff) σ (.runs i) [.runs j] := by
  have hmake : Maker.make σ .difference [.runs i, .runs j] =
      .ok (.runs ((σ.spelledAt i).diff (σ.spelledAt j))) := by
    simp only [Maker.make, Maker.difference?, contents?, runs?]
    by_cases hempty : (Contents.runs (σ.spelledAt i)).isEmpty = true
    · have hnil : (σ.spelledAt i).spans = [] :=
        List.map_eq_nil_iff.1 (List.isEmpty_iff.1 hempty)
      rw [if_pos hempty, SpelledRuns.diff, hnil, Walk.run]
      rfl
    · rw [if_neg hempty]
      rfl
  exact make_of_ok hmake

namespace Store

variable {s t : StoredRuns}

/-! ### Intersections -/

/-- **The intersection of two stored sets** is a new set of the integers that are in both. The walk
settles the common part of each two runs that overlap, and nothing else. -/
theorem holds_intersection (hσ : σ.Reachable) (hs : σ.runs[i]? = some s)
    (ht : σ.runs[j]? = some t) :
    ∃ place τ, Request.perform (.derive .inter) σ (.runs i) [.runs j] =
        (τ, ⟨.ok (.runs place), []⟩) ∧
      ¬ σ.Knows (.runs place) ∧ τ.runs[i]? = some s ∧ τ.runs[j]? = some t ∧
      (∀ v, (τ.runsAt place).Holds v ↔ s.runs.Holds v ∧ t.runs.Holds v) ∧
      ∀ z, z ∈ Runs.overlap.run s.runs t.runs ↔ Runs.IsOverlap s.runs t.runs z := by
  have hxs : s.runs.Canonical := hσ.canonical s (Array.mem_of_getElem? hs)
  have hys : t.runs.Canonical := hσ.canonical t (Array.mem_of_getElem? ht)
  have hext := σ.extends_addRuns (s.inter t.toSpelledRuns)
  have hperform := Request.perform_inter σ i j
  rw [spelledAt_eq_of_getElem? hs, spelledAt_eq_of_getElem? ht] at hperform
  refine ⟨_, _, hperform, Nat.lt_irrefl _, hext.runs hs, hext.runs ht, fun v => ?_,
    fun z => Runs.mem_overlap_run _ _ hxs hys⟩
  rw [runsAt_addRuns]
  exact SpelledRuns.holds_inter hxs hys

/-- A run that overlaps three others, and a run that ends where another one starts. -/
theorem holds_intersection_shared_bounds :
    let xs : Runs := [⟨1, 9⟩, ⟨12, 15⟩]
    let ys : Runs := [⟨-3, 1⟩, ⟨3, 4⟩, ⟨6, 9⟩, ⟨15, 20⟩]
    let σ := Session.run .initial
      [⟨.make .ofIntervals, xs.map fun x => .interval (.int x.lo) (.int x.hi), some "a"⟩,
       ⟨.make .ofIntervals, ys.map fun y => .interval (.int y.lo) (.int y.hi), some "b"⟩]
    ∃ place τ, Request.perform (.derive .inter) σ (.runs 2) [.runs 3] =
        (τ, ⟨.ok (.runs place), []⟩) ∧
      (∀ v, (τ.runsAt place).Holds v ↔ xs.Holds v ∧ ys.Holds v) ∧
      ∀ z, z ∈ Runs.overlap.run xs ys ↔ Runs.IsOverlap xs ys z := by
  intro xs ys σ
  have hs : σ.runs[2]? = some ⟨.plain xs, .bool false⟩ := by rfl
  have ht : σ.runs[3]? = some ⟨.plain ys, .bool false⟩ := by rfl
  obtain ⟨place, τ, hperform, -, -, -, hholds, hwalk⟩ := holds_intersection ⟨_, rfl⟩ hs ht
  exact ⟨place, τ, hperform, hholds, hwalk⟩

/-! ### Differences -/

/-- **The difference of two stored sets** is a new set of the integers that are in the left one and
not in the right one, by either request. It is what is left of a copy of the left set that is edited
in place. The two sets may be the same, and they stay as they are. -/
theorem holds_difference (hσ : σ.Reachable) (hs : σ.runs[i]? = some s)
    (ht : σ.runs[j]? = some t) :
    ∃ place τ, σ.make .difference [.runs i, .runs j] = (τ, ⟨.ok (.runs place), []⟩) ∧
      Request.perform (.derive .diff) σ (.runs i) [.runs j] = (τ, ⟨.ok (.runs place), []⟩) ∧
      ¬ σ.Knows (.runs place) ∧ τ.runs[i]? = some s ∧ τ.runs[j]? = some t ∧
      τ.runsAt place = Runs.trimInPlace t.runs s.runs 0 0 ∧
      ∀ v, (τ.runsAt place).Holds v ↔ s.runs.Holds v ∧ ¬ t.runs.Holds v := by
  have hxs : s.runs.Canonical := hσ.canonical s (Array.mem_of_getElem? hs)
  have hys : t.runs.Canonical := hσ.canonical t (Array.mem_of_getElem? ht)
  have hext := σ.extends_addRuns (s.diff t.toSpelledRuns)
  have hperform := Request.perform_diff σ i j
  rw [spelledAt_eq_of_getElem? hs, spelledAt_eq_of_getElem? ht] at hperform
  refine ⟨_, _, (σ.make_difference i j).trans hperform, hperform, Nat.lt_irrefl _, hext.runs hs,
    hext.runs ht, ?_, fun v => ?_⟩
  · rw [runsAt_addRuns, SpelledRuns.runs_diff, Runs.trimInPlace_eq_diff]
  · rw [runsAt_addRuns]
    exact SpelledRuns.holds_diff hxs hys

/-- A run is split twice, one is trimmed on each side, one is taken out, and a set is subtracted
from itself. -/
theorem holds_difference_edited :
    let xs : Runs := [⟨1, 9⟩, ⟨12, 15⟩, ⟨17, 18⟩]
    let ys : Runs := [⟨3, 4⟩, ⟨6, 6⟩, ⟨9, 12⟩, ⟨15, 20⟩]
    let σ := Session.run .initial
      [⟨.make .ofIntervals, xs.map fun x => .interval (.int x.lo) (.int x.hi), some "a"⟩,
       ⟨.make .ofIntervals, ys.map fun y => .interval (.int y.lo) (.int y.hi), some "b"⟩]
    (∃ place τ, σ.make .difference [.runs 2, .runs 3] = (τ, ⟨.ok (.runs place), []⟩) ∧
      τ.runsAt place = Runs.trimInPlace ys xs 0 0 ∧
      ∀ v, (τ.runsAt place).Holds v ↔ xs.Holds v ∧ ¬ ys.Holds v) ∧
    ∃ place τ, σ.make .difference [.runs 2, .runs 2] = (τ, ⟨.ok (.runs place), []⟩) ∧
      ∀ v, ¬ (τ.runsAt place).Holds v := by
  intro xs ys σ
  have hs : σ.runs[2]? = some ⟨.plain xs, .bool false⟩ := by rfl
  have ht : σ.runs[3]? = some ⟨.plain ys, .bool false⟩ := by rfl
  have hσ : σ.Reachable := ⟨_, rfl⟩
  obtain ⟨place, τ, hmake, -, -, -, -, hedited, hholds⟩ := holds_difference hσ hs ht
  obtain ⟨own, υ, hmakeOwn, -, -, -, -, -, hholdsOwn⟩ := holds_difference hσ hs hs
  refine ⟨⟨place, τ, hmake, hedited, hholds⟩, own, υ, hmakeOwn, fun v hv => ?_⟩
  obtain ⟨hleft, hright⟩ := (hholdsOwn v).1 hv
  exact hright hleft

end Store

end SymbolSets
