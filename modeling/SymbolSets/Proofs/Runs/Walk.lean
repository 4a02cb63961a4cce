import Mathlib.Tactic.SplitIfs
import SymbolSets.Proofs.Runs.Update
import SymbolSets.Runs.Walk

/-!
# What the walks over two sets settle

A walk over two canonical lists compares their heads only. What one turn says about the two heads
extends to the lists behind them, since these hold nothing up to the ends of their heads. So it is
enough to say of a rule what one turn leaves undecided; the induction on the walk is the same for
the common part and for the difference.

## Main definitions

* `Walk.Combines`: a rule whose turns decide which integers of two sets belong to the result.
* `Runs.IsOverlap`: what two overlapping runs have in common, one of each list.

## Main results

* `Walk.Combines.holds_run`: what a whole walk settles.
* `Runs.canonical_inter`, `Runs.holds_inter`: the common part of two sets.
* `Runs.mem_overlap_run`, `Runs.canonical_overlap_run`: which intervals the walk for the common part
  settles, and in which form.
* `Runs.canonical_diff`, `Runs.holds_diff`: what one set leaves of another.
-/

namespace SymbolSets

open Runs

/-- Each turn of the walk keeps the rest of both lists canonical and settles only what belongs to
the result; what belongs to the result otherwise is decided by the rest of the lists. An integer
belongs to the result by `belongs`, given whether it lies in the left and in the right set. -/
structure Walk.Combines (w : Walk Interval) (belongs : Prop → Prop → Prop) : Prop where
  canonical : ∀ {x y xs ys}, Canonical (x :: xs) → Canonical (y :: ys) →
    Canonical ((w.turn x y).left ++ xs) ∧ Canonical ((w.turn x y).right ++ ys)
  holds : ∀ {x y xs ys v}, Canonical (x :: xs) → Canonical (y :: ys) →
    (Holds (w.turn x y).settled v ∨
        belongs (Holds ((w.turn x y).left ++ xs) v) (Holds ((w.turn x y).right ++ ys) v) ↔
      belongs (Holds (x :: xs) v) (Holds (y :: ys) v))
  left_used_up : ∀ q, ¬ belongs False q
  right_used_up : ∀ p, belongs p False ↔ w.keepsLeft = true ∧ p

/-- **A walk settles what belongs to the result.** The induction is on the turns of the walk. -/
theorem Walk.Combines.holds_run {w : Walk Interval} {belongs : Prop → Prop → Prop}
    (hw : w.Combines belongs) (xs ys : Runs) (hxs : xs.Canonical) (hys : ys.Canonical) {v : Int} :
    Holds (w.run xs ys) v ↔ belongs (xs.Holds v) (ys.Holds v) := by
  have hnil : Holds [] v ↔ False := iff_false_intro holds_nil
  induction xs, ys using Walk.run.induct w with
  | case1 ys =>
    rw [Walk.run, hnil]
    exact (iff_false_intro (hw.left_used_up _)).symm
  | case2 x xs keeps =>
    rw [Walk.run, if_pos keeps, hnil, hw.right_used_up]
    exact (and_iff_right keeps).symm
  | case3 x xs drops =>
    rw [Walk.run, if_neg drops, hnil, hw.right_used_up]
    exact (iff_false_intro fun h => drops h.1).symm
  | case4 x xs y ys ih =>
    obtain ⟨hleft, hright⟩ := hw.canonical hxs hys
    rw [Walk.run, holds_append]
    exact (or_congr_right (ih hleft hright)).trans (hw.holds hxs hys)

namespace Runs

/-! ### The common part -/

/-- **What a turn does.** Of two heads that are apart the lower one is used up. Of two that overlap
the common part is settled, and the one that ends first is used up. -/
theorem overlapTurn_cases (x : Interval) {y : Interval} (hy : y.lo ≤ y.hi) :
    x.hi < y.lo ∧ overlapTurn x y = ⟨[], [], [y]⟩ ∨
      y.hi < x.lo ∧ overlapTurn x y = ⟨[], [x], []⟩ ∨
      (¬ x.Disjoint y ∧ y.hi ≤ x.hi) ∧ overlapTurn x y = ⟨[x.inter y], [x], []⟩ ∨
      (¬ x.Disjoint y ∧ x.hi ≤ y.hi) ∧ overlapTurn x y = ⟨[x.inter y], [], [y]⟩ := by
  have hmeet (hxy : ¬ x.Precedes y) (hyx : ¬ y.Precedes x) : ¬ x.Disjoint y :=
    mt (Interval.disjoint_iff_precedes hy).1 (not_or.2 ⟨hxy, hyx⟩)
  rw [overlapTurn]
  split_ifs with hxy hyx hcovers hcovered hapart hinside hinside'
  · exact .inl ⟨hxy.2, rfl⟩
  · exact .inr (.inl ⟨hyx.2, rfl⟩)
  · exact .inr (.inr (.inl ⟨⟨hmeet hxy hyx, hcovers.2⟩, rfl⟩))
  · exact .inr (.inr (.inr ⟨⟨hmeet hxy hyx, hcovered.2⟩, rfl⟩))
  · exact absurd hapart (hmeet hxy hyx)
  -- neither head covers the other, so one of them starts inside the other and ends after it
  · have hend : y.hi < x.hi := hinside.hi_lt hcovered
    exact .inr (.inr (.inl ⟨⟨hmeet hxy hyx, Int.le_of_lt hend⟩, rfl⟩))
  · have hend : x.hi < y.hi := hinside'.hi_lt hcovers
    exact .inr (.inr (.inr ⟨⟨hmeet hxy hyx, Int.le_of_lt hend⟩, rfl⟩))
  · exact ((Interval.startsInside_or_startsInside (hmeet hxy hyx) hcovers hcovered).elim
      hinside hinside').elim

theorem overlap_combines : overlap.Combines fun p q => p ∧ q where
  canonical {x y xs ys} hxs hys := by
    simp only [overlap]
    rcases overlapTurn_cases x (hys.lo_le_hi List.mem_cons_self) with
      ⟨-, heq⟩ | ⟨-, heq⟩ | ⟨-, heq⟩ | ⟨-, heq⟩
    · rw [heq]
      exact ⟨hxs.tail, hys⟩
    · rw [heq]
      exact ⟨hxs, hys.tail⟩
    · rw [heq]
      exact ⟨hxs, hys.tail⟩
    · rw [heq]
      exact ⟨hxs.tail, hys⟩
  holds {x y xs ys v} hxs hys := by
    have hx : x.lo ≤ x.hi := hxs.lo_le_hi List.mem_cons_self
    have hy : y.lo ≤ y.hi := hys.lo_le_hi List.mem_cons_self
    have hxv : Holds xs v → x.hi + 1 < v := hxs.gap
    have hyv : Holds ys v → y.hi + 1 < v := hys.gap
    simp only [overlap]
    -- the head that is used up ends before anything behind the other head
    rcases overlapTurn_cases x hy with ⟨hlt, heq⟩ | ⟨hlt, heq⟩ | ⟨hle, heq⟩ | ⟨hle, heq⟩
    · simp only [heq, List.nil_append, List.cons_append, holds_cons, holds_nil, Interval.mem_def]
      grind
    · simp only [heq, List.nil_append, List.cons_append, holds_cons, holds_nil, Interval.mem_def]
      grind
    · simp only [heq, List.nil_append, List.cons_append, holds_cons, holds_nil,
        Interval.mem_inter]
      simp only [Interval.mem_def]
      grind
    · simp only [heq, List.nil_append, List.cons_append, holds_cons, holds_nil,
        Interval.mem_inter]
      simp only [Interval.mem_def]
      grind
  left_used_up q h := h.1
  right_used_up p := by simp [overlap]

/-- The interval `z` is what two overlapping runs have in common, one of each list. -/
def IsOverlap (xs ys : Runs) (z : Interval) : Prop :=
  ∃ x ∈ xs, ∃ y ∈ ys, ¬ x.Disjoint y ∧ z = x.inter y

section IsOverlap

variable {x y z : Interval} {xs ys : Runs}

/-- A left head that ends no later than the right one overlaps nothing behind that one. -/
theorem isOverlap_cons_left (hx : x.lo ≤ x.hi) (hys : Canonical (y :: ys)) (h : x.hi ≤ y.hi) :
    IsOverlap (x :: xs) (y :: ys) z ↔
      (¬ x.Disjoint y ∧ z = x.inter y) ∨ IsOverlap xs (y :: ys) z := by
  have hrest : ¬ ∃ w ∈ ys, ¬ x.Disjoint w ∧ z = x.inter w := by
    rintro ⟨w, hw, hmeet, -⟩
    have hgap : y.hi + 1 < w.lo := hys.gap (hys.tail.holds_lo_of_mem hw)
    exact hmeet (.inl ⟨by omega, by omega⟩)
  simp only [IsOverlap, List.mem_cons, exists_eq_or_imp, hrest, or_false]

/-- A right head that ends no later than the left one overlaps nothing behind that one. -/
theorem isOverlap_cons_right (hxs : Canonical (x :: xs)) (h : y.hi ≤ x.hi) :
    IsOverlap (x :: xs) (y :: ys) z ↔
      (¬ x.Disjoint y ∧ z = x.inter y) ∨ IsOverlap (x :: xs) ys z := by
  have hrest : ¬ ∃ w ∈ xs, ¬ w.Disjoint y ∧ z = w.inter y := by
    rintro ⟨w, hw, hmeet, -⟩
    have hgap : x.hi + 1 < w.lo := hxs.gap (hxs.tail.holds_lo_of_mem hw)
    refine hmeet (.inr ?_)
    simp only [Interval.Follows]
    omega
  simp only [IsOverlap, List.mem_cons, exists_eq_or_imp, and_or_left, exists_or, hrest, or_false]

/-- **The walk settles the common part of each two runs that overlap, and nothing else.** The
induction is on the walk. -/
theorem mem_overlap_run (xs ys : Runs) (hxs : xs.Canonical) (hys : ys.Canonical) :
    z ∈ overlap.run xs ys ↔ IsOverlap xs ys z := by
  induction xs, ys using Walk.run.induct overlap with
  | case1 ys => simp [Walk.run, IsOverlap]
  | case2 x xs keeps => cases keeps
  | case3 x xs drops => simp [Walk.run, IsOverlap, overlap]
  | case4 x xs y ys ih =>
    have hx : x.lo ≤ x.hi := hxs.lo_le_hi List.mem_cons_self
    have hy : y.lo ≤ y.hi := hys.lo_le_hi List.mem_cons_self
    rw [Walk.run]
    simp only [overlap] at ih ⊢
    rcases overlapTurn_cases x hy with ⟨hlt, heq⟩ | ⟨hlt, heq⟩ | ⟨⟨hmeet, hle⟩, heq⟩ |
      ⟨⟨hmeet, hle⟩, heq⟩
    · have hapart : x.Disjoint y := .inl ⟨by omega, hlt⟩
      rw [heq] at ih ⊢
      rw [isOverlap_cons_left hx hys (by omega)]
      simpa [hapart] using ih hxs.tail hys
    · have hapart : x.Disjoint y := .inr hlt
      rw [heq] at ih ⊢
      rw [isOverlap_cons_right hxs (by omega)]
      simpa [hapart] using ih hxs hys.tail
    · rw [heq] at ih ⊢
      rw [isOverlap_cons_right hxs hle]
      simpa [hmeet] using or_congr_right (ih hxs hys.tail)
    · rw [heq] at ih ⊢
      rw [isOverlap_cons_left hx hys hle]
      simpa [hmeet] using or_congr_right (ih hxs.tail hys)

end IsOverlap

/-- What a turn settles is no more than one run, which leaves a gap before everything that stays in
both lists. -/
theorem canonical_overlapTurn_settled_append {x y : Interval} {xs ys zs : Runs}
    (hxs : Canonical (x :: xs)) (hys : Canonical (y :: ys)) (hzs : zs.Canonical)
    (hleft : ∀ v, Holds zs v → Holds ((overlapTurn x y).left ++ xs) v)
    (hright : ∀ v, Holds zs v → Holds ((overlapTurn x y).right ++ ys) v) :
    Canonical ((overlapTurn x y).settled ++ zs) := by
  have hx : x.lo ≤ x.hi := hxs.lo_le_hi List.mem_cons_self
  have hy : y.lo ≤ y.hi := hys.lo_le_hi List.mem_cons_self
  have hinter (h : ¬ x.Disjoint y) : (x.inter y).lo ≤ (x.inter y).hi :=
    Interval.lo_le_hi_inter hx hy h
  -- the piece ends with the head that is used up, and only the list behind this head is left
  rcases overlapTurn_cases x hy with ⟨-, heq⟩ | ⟨-, heq⟩ | ⟨⟨hmeet, -⟩, heq⟩ |
    ⟨⟨hmeet, -⟩, heq⟩
  · rw [heq]
    exact hzs
  · rw [heq]
    exact hzs
  · rw [heq] at hright ⊢
    refine canonical_cons.2 ⟨hinter hmeet, hzs, fun v hv => ?_⟩
    have hgap : y.hi + 1 < v := hys.gap (hright v hv)
    simp only [Interval.inter]
    omega
  · rw [heq] at hleft ⊢
    refine canonical_cons.2 ⟨hinter hmeet, hzs, fun v hv => ?_⟩
    have hgap : x.hi + 1 < v := hxs.gap (hleft v hv)
    simp only [Interval.inter]
    omega

/-- **The walk settles the common part in canonical form.** Two integers in a row that both sets
hold lie in one run of each set, so they are never settled apart. -/
theorem canonical_overlap_run (xs ys : Runs) (hxs : xs.Canonical) (hys : ys.Canonical) :
    Canonical (overlap.run xs ys) := by
  induction xs, ys using Walk.run.induct overlap with
  | case1 ys => simpa [Walk.run] using canonical_nil
  | case2 x xs keeps => cases keeps
  | case3 x xs drops => simpa [Walk.run, overlap] using canonical_nil
  | case4 x xs y ys ih =>
    obtain ⟨hleft, hright⟩ := overlap_combines.canonical hxs hys
    have hholds (v : Int) := overlap_combines.holds_run _ _ hleft hright (v := v)
    rw [Walk.run]
    exact canonical_overlapTurn_settled_append hxs hys (ih hleft hright)
      (fun v hv => ((hholds v).1 hv).1) fun v hv => ((hholds v).1 hv).2

theorem canonical_inter (xs ys : Runs) : Canonical (inter xs ys) :=
  canonical_ofIntervals _

/-- **The common part holds what both sets hold.** -/
theorem holds_inter {xs ys : Runs} (hxs : xs.Canonical) (hys : ys.Canonical) {v : Int} :
    Holds (inter xs ys) v ↔ xs.Holds v ∧ ys.Holds v := by
  rw [inter, holds_ofIntervals, overlap_combines.holds_run xs ys hxs hys]

/-! ### The difference -/

/-- What stays of the lists after a turn is canonical. -/
theorem canonical_trimTurn {x y : Interval} {xs ys : Runs} (hxs : Canonical (x :: xs))
    (hys : Canonical (y :: ys)) :
    Canonical ((trimTurn x y).left ++ xs) ∧ Canonical ((trimTurn x y).right ++ ys) := by
  have hrest (h : y.hi < x.hi) : Canonical (⟨y.hi + 1, x.hi⟩ :: xs) :=
    canonical_cons.2 ⟨h, hxs.tail, fun v hv => hxs.gap hv⟩
  simp only [trimTurn]
  split_ifs with h₁ h₂ h₃ h₄ h₅
  · exact ⟨hxs, hys.tail⟩
  · exact ⟨hxs.tail, hys⟩
  · exact ⟨hrest h₄, hys.tail⟩
  · exact ⟨hxs.tail, hys⟩
  · exact ⟨hrest h₅, hys.tail⟩
  · exact ⟨hxs.tail, hys⟩

/-- A turn settles integers of the left head that the right list lacks, and keeps all others in what
stays of the two lists. -/
theorem holds_trimTurn {x y : Interval} {xs ys : Runs} (hxs : Canonical (x :: xs))
    (hys : Canonical (y :: ys)) {v : Int} :
    (Holds (trimTurn x y).settled v ∨
        Holds ((trimTurn x y).left ++ xs) v ∧ ¬ Holds ((trimTurn x y).right ++ ys) v) ↔
      Holds (x :: xs) v ∧ ¬ Holds (y :: ys) v := by
  have hx : x.lo ≤ x.hi := hxs.lo_le_hi List.mem_cons_self
  have hy : y.lo ≤ y.hi := hys.lo_le_hi List.mem_cons_self
  have hxv : Holds xs v → x.hi + 1 < v := hxs.gap
  have hyv : Holds ys v → y.hi + 1 < v := hys.gap
  simp only [trimTurn]
  split_ifs <;>
    simp only [List.nil_append, List.cons_append, holds_cons, holds_nil, Interval.mem_def] <;>
    grind

theorem trim_combines : trim.Combines fun p q => p ∧ ¬ q where
  canonical := canonical_trimTurn
  holds hxs hys := holds_trimTurn hxs hys
  left_used_up q h := h.1
  right_used_up p := by simp [trim]

/-- What a turn settles is no more than one run, which leaves a gap before what stays of the left
list. -/
theorem canonical_trimTurn_settled_append {x y : Interval} {xs zs : Runs}
    (hxs : Canonical (x :: xs)) (hy : y.lo ≤ y.hi) (hzs : zs.Canonical)
    (hle : ∀ v, Holds zs v → Holds ((trimTurn x y).left ++ xs) v) :
    Canonical ((trimTurn x y).settled ++ zs) := by
  have hx : x.lo ≤ x.hi := hxs.lo_le_hi List.mem_cons_self
  simp only [trimTurn] at hle ⊢
  split_ifs at hle ⊢ with h₁ h₂ h₃ h₄ h₅
  · exact hzs
  · exact canonical_cons.2 ⟨hx, hzs, fun v hv => hxs.gap (hle v hv)⟩
  · refine canonical_cons.2 ⟨by simp only; omega, hzs, fun v hv => ?_⟩
    have hrest : Canonical (⟨y.hi + 1, x.hi⟩ :: xs) :=
      canonical_cons.2 ⟨h₄, hxs.tail, fun v hv => hxs.gap hv⟩
    have hlo := hrest.lo_le (hle v hv)
    simp only at hlo ⊢
    omega
  · refine canonical_cons.2 ⟨by simp only; omega, hzs, fun v hv => ?_⟩
    have hgap := hxs.gap (hle v hv)
    simp only
    omega
  · exact hzs
  · exact hzs

/-- **The difference is canonical.** -/
theorem canonical_trim_run (xs ys : Runs) (hxs : xs.Canonical) (hys : ys.Canonical) :
    Canonical (trim.run xs ys) := by
  induction xs, ys using Walk.run.induct trim with
  | case1 ys => simpa [Walk.run] using hxs
  | case2 x xs _ => simpa [Walk.run, trim] using hxs
  | case3 x xs drops => exact absurd rfl drops
  | case4 x xs y ys ih =>
    obtain ⟨hleft, hright⟩ := canonical_trimTurn hxs hys
    rw [Walk.run]
    refine canonical_trimTurn_settled_append hxs (hys.lo_le_hi List.mem_cons_self)
      (ih hleft hright) fun v hv => ?_
    exact ((trim_combines.holds_run _ _ hleft hright).1 hv).1

theorem canonical_diff {xs ys : Runs} (hxs : xs.Canonical) (hys : ys.Canonical) :
    Canonical (diff xs ys) :=
  canonical_trim_run xs ys hxs hys

/-- **The difference holds what the left set holds and the right one does not.** -/
theorem holds_diff {xs ys : Runs} (hxs : xs.Canonical) (hys : ys.Canonical) {v : Int} :
    Holds (diff xs ys) v ↔ xs.Holds v ∧ ¬ ys.Holds v :=
  trim_combines.holds_run xs ys hxs hys

end Runs

end SymbolSets
