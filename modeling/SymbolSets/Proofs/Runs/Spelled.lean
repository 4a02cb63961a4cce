import SymbolSets.Proofs.Runs.Length
import SymbolSets.Runs.Spelled

/-!
# Sets as they are written: what they hold

However the bounds of a set are written, its operations keep it canonical, and it holds afterwards
what the operations on runs make it hold, with no more runs.

## Main results

* `SpelledRuns.canonical_insertAll`, `SpelledRuns.canonical_erase`, `SpelledRuns.canonical_inter`,
  `SpelledRuns.canonical_diff`: the results are canonical.
* `SpelledRuns.holds_insertAll`, `SpelledRuns.holds_erase`, `SpelledRuns.holds_inter`,
  `SpelledRuns.holds_diff`: what the results hold.
* `SpelledRuns.length_insertAll_le`, `SpelledRuns.length_erase_le`: how many runs they have.
-/

namespace SymbolSets.SpelledRuns

variable {xs ys : SpelledRuns} {v : Int}

theorem canonical_insertAll (h : xs.runs.Canonical) (rs : List Span) :
    (xs.insertAll rs).runs.Canonical := by
  rw [runs_insertAll]
  exact Runs.canonical_insertAll h _

theorem holds_insertAll (h : xs.runs.Canonical) {rs : List Span} :
    (xs.insertAll rs).runs.Holds v ↔ xs.runs.Holds v ∨ Runs.Holds (rs.map Span.interval) v := by
  rw [runs_insertAll]
  exact Runs.holds_insertAll h

theorem length_insertAll_le (xs : SpelledRuns) (rs : List Span) :
    (xs.insertAll rs).runs.length ≤ xs.runs.length + rs.length := by
  have hlength := Runs.length_insertAll_le xs.runs (rs.map Span.interval)
  have hcount := List.countP_le_length (p := fun r => ¬ r.IsEmpty) (l := rs.map Span.interval)
  rw [List.length_map] at hcount
  rw [runs_insertAll]
  exact Nat.le_trans hlength (Nat.add_le_add_left hcount _)

theorem canonical_ofSpans (rs : List Span) : (ofSpans rs).runs.Canonical := by
  rw [runs_ofSpans]
  exact Runs.canonical_ofIntervals _

theorem holds_ofSpans {rs : List Span} :
    (ofSpans rs).runs.Holds v ↔ Runs.Holds (rs.map Span.interval) v := by
  rw [runs_ofSpans]
  exact Runs.holds_ofIntervals

theorem canonical_erase (h : xs.runs.Canonical) (v : Int) : (xs.erase v).runs.Canonical := by
  rw [runs_erase]
  exact Runs.canonical_erase h

theorem holds_erase (h : xs.runs.Canonical) {w : Int} :
    (xs.erase v).runs.Holds w ↔ w ≠ v ∧ xs.runs.Holds w := by
  rw [runs_erase]
  exact Runs.holds_erase h

theorem length_erase_le (v : Int) (xs : SpelledRuns) :
    (xs.erase v).runs.length ≤ xs.runs.length + 1 := by
  rw [runs_erase]
  exact Runs.length_erase_le v xs.runs

theorem canonical_inter (xs ys : SpelledRuns) : (xs.inter ys).runs.Canonical := by
  rw [runs_inter]
  exact Runs.canonical_inter _ _

theorem holds_inter (hxs : xs.runs.Canonical) (hys : ys.runs.Canonical) :
    (xs.inter ys).runs.Holds v ↔ xs.runs.Holds v ∧ ys.runs.Holds v := by
  rw [runs_inter]
  exact Runs.holds_inter hxs hys

theorem canonical_diff (hxs : xs.runs.Canonical) (hys : ys.runs.Canonical) :
    (xs.diff ys).runs.Canonical := by
  rw [runs_diff]
  exact Runs.canonical_diff hxs hys

theorem holds_diff (hxs : xs.runs.Canonical) (hys : ys.runs.Canonical) :
    (xs.diff ys).runs.Holds v ↔ xs.runs.Holds v ∧ ¬ ys.runs.Holds v := by
  rw [runs_diff]
  exact Runs.holds_diff hxs hys

end SymbolSets.SpelledRuns
