import Mathlib.Tactic.SplitIfs
import SymbolSets.Proofs.Interval.Position
import SymbolSets.Proofs.Runs.Canonical
import SymbolSets.Runs.Erase
import SymbolSets.Runs.Insert

/-!
# Adding and removing integers

Adding an interval to a canonical list gives a canonical list that holds the integers of both, and
removing an integer gives a canonical list that holds all the others. How many runs are merged,
swallowed or split on the way does not show in either statement.

## Main results

* `Runs.canonical_insert`, `Runs.holds_insert`: adding one interval.
* `Runs.canonical_insertAll`, `Runs.holds_insertAll`, `Runs.holds_ofIntervals`: adding several,
  which may overlap and come in any order.
* `Runs.ofIntervals_eq_self`: adding the runs of a set in order.
* `Runs.canonical_erase`, `Runs.holds_erase`: removing an integer.
-/

namespace SymbolSets

namespace Runs

/-! ### An interval that swallows what it touches -/

theorem holds_absorb : {xs : Runs} → xs.Canonical → {r : Interval} → r.lo ≤ r.hi →
    ∀ {v : Int}, Holds (absorb r xs) v ↔ v ∈ r ∨ xs.Holds v
  | [], _, _, _, _ => holds_cons
  | x :: xs, h, r, hr, v => by
    have hx : x.lo ≤ x.hi := h.lo_le_hi List.mem_cons_self
    rw [absorb]
    split_ifs with htouch
    · rw [holds_absorb h.tail (Interval.lo_le_hi_hull hr x), Interval.mem_hull hr hx htouch,
        holds_cons, or_assoc]
    · exact holds_cons

/-- Swallowing keeps the form when no run starts before the interval: the first run that it does not
touch then starts past a gap. -/
theorem canonical_absorb : {xs : Runs} → xs.Canonical → {r : Interval} → r.lo ≤ r.hi →
    (∀ v, xs.Holds v → r.lo ≤ v) → Canonical (absorb r xs)
  | [], _, _, hr, _ => canonical_singleton hr
  | x :: xs, h, r, hr, hle => by
    have hx : x.lo ≤ x.hi := h.lo_le_hi List.mem_cons_self
    have hrx : r.lo ≤ x.lo := hle x.lo h.holds_lo
    rw [absorb]
    split_ifs with htouch
    · refine canonical_absorb h.tail (Interval.lo_le_hi_hull hr x) fun v hv => ?_
      have hgap := h.gap hv
      simp only [Interval.hull]
      omega
    · rw [Interval.touches_iff hr hx] at htouch
      refine canonical_cons.2 ⟨hr, h, fun v hv => ?_⟩
      have hxv := h.lo_le hv
      omega

/-! ### An interval in its place among the runs -/

theorem holds_place : {xs : Runs} → xs.Canonical → {r : Interval} → r.lo ≤ r.hi →
    ∀ {v : Int}, Holds (place r xs) v ↔ v ∈ r ∨ xs.Holds v
  | [], _, _, _, _ => holds_cons
  | x :: xs, h, r, hr, v => by
    have hx : x.lo ≤ x.hi := h.lo_le_hi List.mem_cons_self
    rw [place]
    split_ifs with heq htouch hbefore
    · rw [heq, holds_cons, or_self_left]
    · rw [holds_absorb h.tail (Interval.lo_le_hi_hull hr x), Interval.mem_hull hr hx htouch,
        holds_cons, or_assoc]
    · exact holds_cons
    · rw [holds_cons, holds_place h.tail hr, holds_cons, or_left_comm]

theorem canonical_place : {xs : Runs} → xs.Canonical → {r : Interval} → r.lo ≤ r.hi →
    Canonical (place r xs)
  | [], _, _, hr => canonical_singleton hr
  | x :: xs, h, r, hr => by
    have hx : x.lo ≤ x.hi := h.lo_le_hi List.mem_cons_self
    rw [place]
    split_ifs with heq htouch hbefore
    · exact h
    · refine canonical_absorb h.tail (Interval.lo_le_hi_hull hr x) fun v hv => ?_
      have hgap := h.gap hv
      simp only [Interval.hull]
      omega
    · rw [Interval.touches_iff hr hx] at htouch
      obtain ⟨-, hend⟩ := hbefore
      refine canonical_cons.2 ⟨hr, h, fun v hv => ?_⟩
      have hxv := h.lo_le hv
      omega
    -- neither touching `x` nor before it, the interval lies past a gap after `x`
    · rw [Interval.touches_iff hr hx] at htouch
      rw [Interval.Precedes] at hbefore
      refine canonical_cons.2 ⟨hx, canonical_place h.tail hr, fun v hv => ?_⟩
      rcases (holds_place h.tail hr).1 hv with hv | hv
      · rw [Interval.mem_def] at hv
        omega
      · exact h.gap hv

/-! ### Adding intervals -/

/-- **Adding an interval keeps the canonical form.** -/
theorem canonical_insert {xs : Runs} (h : xs.Canonical) (r : Interval) :
    Canonical (insert r xs) := by
  rw [insert]
  split_ifs with hr
  · exact h
  · exact canonical_place h (Int.not_lt.1 hr)

/-- **Adding an interval adds its integers and nothing else.** -/
theorem holds_insert {xs : Runs} (h : xs.Canonical) {r : Interval} {v : Int} :
    Holds (insert r xs) v ↔ v ∈ r ∨ xs.Holds v := by
  rw [insert]
  split_ifs with hr
  · exact (or_iff_right (Interval.isEmpty_iff.1 hr v)).symm
  · exact holds_place h (Int.not_lt.1 hr)

/-- A non-empty interval is the only run of a set to which it is added first. -/
theorem insert_nil {x : Interval} (hx : x.lo ≤ x.hi) : insert x [] = [x] := by
  have hne : ¬ x.IsEmpty := Int.not_lt.2 hx
  rw [insert, if_neg hne]
  rfl

@[simp] theorem insertAll_nil (xs : Runs) : insertAll xs [] = xs :=
  rfl

@[simp] theorem insertAll_cons (xs : Runs) (r : Interval) (rs : List Interval) :
    insertAll xs (r :: rs) = insertAll (insert r xs) rs :=
  rfl

theorem canonical_insertAll {xs : Runs} (h : xs.Canonical) (rs : List Interval) :
    Canonical (insertAll xs rs) := by
  induction rs generalizing xs with
  | nil => exact h
  | cons r rs ih => exact ih (canonical_insert h r)

theorem holds_insertAll {xs : Runs} (h : xs.Canonical) {rs : List Interval} {v : Int} :
    Holds (insertAll xs rs) v ↔ xs.Holds v ∨ Holds rs v := by
  induction rs generalizing xs with
  | nil => simp [holds_nil]
  | cons r rs ih =>
    rw [insertAll_cons, ih (canonical_insert h r), holds_insert h, holds_cons, or_assoc,
      or_left_comm]

/-- Any intervals make a canonical list, empty ones among them. -/
theorem canonical_ofIntervals (rs : List Interval) : Canonical (ofIntervals rs) :=
  canonical_insertAll canonical_nil rs

theorem holds_ofIntervals {rs : List Interval} {v : Int} :
    Holds (ofIntervals rs) v ↔ Holds rs v := by
  rw [ofIntervals, holds_insertAll canonical_nil, or_iff_right holds_nil]

/-- **The runs of a set are kept as they are** when they are added to the empty set in order. -/
theorem ofIntervals_eq_self {xs : Runs} (h : xs.Canonical) : ofIntervals xs = xs :=
  (canonical_ofIntervals xs).ext h fun _ => holds_ofIntervals

/-! ### Removing an integer -/

/-- **Removing an integer removes it and nothing else.** -/
theorem holds_erase {v : Int} : {xs : Runs} → xs.Canonical →
    ∀ {w : Int}, Holds (erase v xs) w ↔ w ≠ v ∧ xs.Holds w
  | [], _, _ => by simp [erase, holds_nil]
  | x :: xs, h, w => by
    have hx : x.lo ≤ x.hi := h.lo_le_hi List.mem_cons_self
    have hgap : Holds xs w → x.hi + 1 < w := h.gap
    rw [erase]
    split_ifs with hlow hboth hlo hhi hin
    · have hle : Holds (x :: xs) w → x.lo ≤ w := h.lo_le
      exact ⟨fun hw => ⟨by have := hle hw; omega, hw⟩, And.right⟩
    · rw [holds_cons, Interval.mem_def]
      grind
    · simp only [holds_cons, Interval.mem_def]
      grind
    · simp only [holds_cons, Interval.mem_def]
      grind
    · simp only [holds_cons, Interval.mem_def]
      grind
    · have ih := holds_erase (v := v) h.tail (w := w)
      rw [holds_cons, holds_cons, ih, Interval.mem_def]
      grind

/-- **Removing an integer keeps the canonical form.** -/
theorem canonical_erase {v : Int} : {xs : Runs} → xs.Canonical → Canonical (erase v xs)
  | [], _ => canonical_nil
  | x :: xs, h => by
    have hx : x.lo ≤ x.hi := h.lo_le_hi List.mem_cons_self
    rw [erase]
    split_ifs with hlow hboth hlo hhi hin
    · exact h
    · exact h.tail
    · exact canonical_cons.2 ⟨by simp only; omega, h.tail, fun w hw => h.gap hw⟩
    · refine canonical_cons.2 ⟨by simp only; omega, h.tail, fun w hw => ?_⟩
      have hgap := h.gap hw
      simp only
      omega
    · have hright : Canonical (⟨v + 1, x.hi⟩ :: xs) :=
        canonical_cons.2 ⟨by simp only; omega, h.tail, fun w hw => h.gap hw⟩
      refine canonical_cons.2 ⟨by simp only; omega, hright, fun w hw => ?_⟩
      have hle := hright.lo_le hw
      simp only at hle ⊢
      omega
    · refine canonical_cons.2 ⟨hx, canonical_erase h.tail, fun w hw => ?_⟩
      exact h.gap ((holds_erase h.tail).1 hw).2

end Runs

end SymbolSets
