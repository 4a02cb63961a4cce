import SymbolSets.Runs.Basic

/-!
# The canonical form of a set

A list of runs in canonical form is determined by the integers that it stands for, so that sets can
be compared run by run. All facts about canonical lists that the operations need are stated on the
integers held: a run may be put in front of a canonical list when it is not empty and ends at least
two below everything that the list holds.

## Main results

* `Runs.canonical_cons`: when a run may stand in front of a canonical list.
* `Runs.Canonical.ext`: two canonical lists that hold the same integers are equal.
-/

namespace SymbolSets.Runs

/-! ### Runs in front of a canonical list -/

theorem canonical_nil : Canonical [] :=
  ⟨by simp, .nil⟩

theorem canonical_singleton {x : Interval} (hx : x.lo ≤ x.hi) : Canonical [x] :=
  ⟨by simpa using hx, List.pairwise_singleton _ _⟩

/-- A run of a canonical list holds both of its bounds. -/
theorem Canonical.lo_le_hi {xs : Runs} (h : xs.Canonical) {x : Interval} (hx : x ∈ xs) :
    x.lo ≤ x.hi :=
  h.1 x hx

/-- The start of each run is held. -/
theorem Canonical.holds_lo_of_mem {xs : Runs} (h : xs.Canonical) {x : Interval} (hx : x ∈ xs) :
    xs.Holds x.lo :=
  ⟨x, hx, Interval.lo_mem (h.lo_le_hi hx)⟩

theorem Canonical.tail {x : Interval} {xs : Runs} (h : Canonical (x :: xs)) : xs.Canonical :=
  ⟨fun y hy => h.1 y (List.mem_cons_of_mem x hy), h.2.tail⟩

/-- **A run in front of a canonical list.** It must not be empty, and it must leave a gap before
everything that the list holds. -/
theorem canonical_cons {x : Interval} {xs : Runs} :
    Canonical (x :: xs) ↔
      x.lo ≤ x.hi ∧ xs.Canonical ∧ ∀ v, xs.Holds v → x.hi + 1 < v := by
  constructor
  · intro h
    refine ⟨h.lo_le_hi List.mem_cons_self, h.tail, ?_⟩
    rintro v ⟨y, hy, hv⟩
    have hgap : x.hi + 1 < y.lo := List.rel_of_pairwise_cons h.2 hy
    rw [Interval.mem_def] at hv
    omega
  · rintro ⟨hx, hxs, hgap⟩
    refine ⟨?_, List.pairwise_cons.2 ⟨?_, hxs.2⟩⟩
    · intro y hy
      rcases List.mem_cons.1 hy with rfl | hy
      · exact hx
      · exact hxs.lo_le_hi hy
    · intro y hy
      exact hgap y.lo (hxs.holds_lo_of_mem hy)

/-- The runs after the first one leave a gap after it. -/
theorem Canonical.gap {x : Interval} {xs : Runs} (h : Canonical (x :: xs)) {v : Int}
    (hv : xs.Holds v) : x.hi + 1 < v :=
  (canonical_cons.1 h).2.2 v hv

/-- Two canonical lists in a row are canonical if every run of the first leaves a gap before every
run of the second. -/
theorem canonical_append {xs ys : Runs} : Canonical (xs ++ ys) ↔
    xs.Canonical ∧ ys.Canonical ∧ ∀ x ∈ xs, ∀ y ∈ ys, x.hi + 1 < y.lo := by
  rw [Canonical, List.forall_mem_append, List.pairwise_append]
  exact ⟨fun ⟨⟨hx, hy⟩, hxs, hys, hgap⟩ => ⟨⟨hx, hxs⟩, ⟨hy, hys⟩, hgap⟩,
    fun ⟨⟨hx, hxs⟩, ⟨hy, hys⟩, hgap⟩ => ⟨⟨hx, hy⟩, hxs, hys, hgap⟩⟩

/-! ### A canonical list is determined by what it holds -/

/-- The first run starts at the least integer of the set. -/
theorem Canonical.lo_le {x : Interval} {xs : Runs} (h : Canonical (x :: xs)) {v : Int}
    (hv : Holds (x :: xs) v) : x.lo ≤ v := by
  rcases holds_cons.1 hv with hv | hv
  · exact (Interval.mem_def.1 hv).1
  · have hgap := h.gap hv
    have hx := h.lo_le_hi List.mem_cons_self
    omega

theorem Canonical.holds_lo {x : Interval} {xs : Runs} (h : Canonical (x :: xs)) :
    Holds (x :: xs) x.lo :=
  h.holds_lo_of_mem List.mem_cons_self

/-- A canonical list without integers has no runs. -/
theorem isEmpty_iff : {xs : Runs} → xs.Canonical → (xs.isEmpty = true ↔ ∀ v, ¬ xs.Holds v)
  | [], _ => iff_of_true rfl fun _ => holds_nil
  | _ :: _, h => iff_of_false nofun fun hempty => hempty _ h.holds_lo

/-- A canonical list has no runs if no elements are listed. -/
theorem eq_nil_iff_elements {xs : Runs} (h : xs.Canonical) : xs = [] ↔ xs.elements = [] := by
  rw [← List.isEmpty_iff, isEmpty_iff h, List.eq_nil_iff_forall_not_mem]
  simp only [mem_elements]

/-- The integer just past the end of the first run is missing. -/
theorem Canonical.not_holds_hi_succ {x : Interval} {xs : Runs} (h : Canonical (x :: xs)) :
    ¬ Holds (x :: xs) (x.hi + 1) := by
  intro hv
  rcases holds_cons.1 hv with hv | hv
  · rw [Interval.mem_def] at hv
    omega
  · have hgap := h.gap hv
    omega

/-- What is held past the end of the first run is held by the others. -/
theorem Canonical.holds_tail_iff {x : Interval} {xs : Runs} (h : Canonical (x :: xs)) {v : Int} :
    Holds xs v ↔ Holds (x :: xs) v ∧ x.hi < v := by
  constructor
  · intro hv
    have hgap := h.gap hv
    exact ⟨holds_cons.2 (.inr hv), by omega⟩
  · rintro ⟨hv, hlt⟩
    rcases holds_cons.1 hv with hv | hv
    · rw [Interval.mem_def] at hv
      omega
    · exact hv

/-- The first run of one set ends no later than that of another set that holds the same. -/
private theorem hi_le_of_holds_iff {x y : Interval} {xs ys : Runs} (hy : Canonical (y :: ys))
    (h : ∀ v, Holds (x :: xs) v ↔ Holds (y :: ys) v) (hlo : x.lo = y.lo) : x.hi ≤ y.hi := by
  refine Int.not_lt.1 fun hlt => ?_
  have hylo := hy.lo_le_hi List.mem_cons_self
  refine hy.not_holds_hi_succ ((h (y.hi + 1)).1 (holds_cons.2 (.inl ?_)))
  rw [Interval.mem_def]
  omega

/-- **The canonical form is unique.** Two canonical lists of runs that hold the same integers are
the same list. -/
theorem Canonical.ext : {xs ys : Runs} → xs.Canonical → ys.Canonical →
    (∀ v, xs.Holds v ↔ ys.Holds v) → xs = ys
  | [], [], _, _, _ => rfl
  | [], _ :: _, _, hy, h => absurd ((h _).2 hy.holds_lo) holds_nil
  | _ :: _, [], hx, _, h => absurd ((h _).1 hx.holds_lo) holds_nil
  | x :: xs, y :: ys, hx, hy, h => by
    have hlo : x.lo = y.lo :=
      Int.le_antisymm (hx.lo_le ((h y.lo).2 hy.holds_lo)) (hy.lo_le ((h x.lo).1 hx.holds_lo))
    have hhi : x.hi = y.hi :=
      Int.le_antisymm (hi_le_of_holds_iff hy h hlo)
        (hi_le_of_holds_iff hx (fun v => (h v).symm) hlo.symm)
    have htail : xs = ys := by
      refine Canonical.ext hx.tail hy.tail fun v => ?_
      rw [hx.holds_tail_iff, hy.holds_tail_iff, h v, hhi]
    obtain ⟨a, b⟩ := x
    obtain ⟨c, d⟩ := y
    obtain rfl : a = c := hlo
    obtain rfl : b = d := hhi
    rw [htail]

end SymbolSets.Runs
