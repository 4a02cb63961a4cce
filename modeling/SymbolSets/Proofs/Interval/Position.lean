import Mathlib.Logic.Basic
import SymbolSets.Interval.Position

/-!
# What the position of two intervals says about their integers

The relations between two intervals are comparisons of bounds. For two non-empty intervals each of
them says something about the integers that the two hold, and together they tell all positions
apart: either one lies before the other or the two overlap, and of two that overlap either one
covers the other or one of them both starts and ends later.

An empty interval has bounds too, and of these the comparisons need not agree: `5..1` does not count
as disjoint from `3..10`, which counts as disjoint from `5..1`.

## Main definitions

* `Interval.Surrounds`: one interval goes on beyond both ends of another.
* `Interval.PositionLaws`: what the relations say about the integers of two intervals.

## Main results

* `Interval.disjoint_iff`, `Interval.covers_iff`: relations that are read off the integers.
* `Interval.mem_hull`, `Interval.forall_mem_hull_iff`: when the hull is the union.
* `Interval.StartsInside.hi_lt`, `Interval.startsInside_or_startsInside`: two intervals that overlap
  side by side.
* `Interval.remainder?_eq_none_iff`, `Interval.exists_remainder?`: what one interval leaves of
  another.
* `Interval.position_laws`: the relations of two non-empty intervals are right about all positions.
-/

namespace SymbolSets.Interval

variable {x y : Interval}

/-! ### One before the other -/

theorem Precedes.asymm (h : x.Precedes y) : ¬ y.Precedes x :=
  fun h' => Int.lt_asymm h.1 h'.1

theorem precedes_iff (hx : x.lo ≤ x.hi) (hy : y.lo ≤ y.hi) :
    x.Precedes y ↔ ∀ v ∈ x, ∀ w ∈ y, v < w := by
  constructor
  · rintro ⟨-, hend⟩ v hv w hw
    exact Int.lt_of_le_of_lt hv.2 (Int.lt_of_lt_of_le hend hw.1)
  · intro h
    have hend : x.hi < y.lo := h x.hi (hi_mem hx) y.lo (lo_mem hy)
    exact ⟨Int.lt_of_le_of_lt hx hend, hend⟩

theorem follows_iff_precedes (hy : y.lo ≤ y.hi) : x.Follows y ↔ y.Precedes x :=
  ⟨fun h => ⟨Int.lt_of_le_of_lt hy h, h⟩, And.right⟩

theorem disjoint_iff_precedes (hy : y.lo ≤ y.hi) :
    x.Disjoint y ↔ x.Precedes y ∨ y.Precedes x :=
  or_congr_right (follows_iff_precedes hy)

theorem disjoint_comm (hx : x.lo ≤ x.hi) (hy : y.lo ≤ y.hi) : x.Disjoint y ↔ y.Disjoint x := by
  rw [disjoint_iff_precedes hy, disjoint_iff_precedes hx, or_comm]

/-- The relation is not symmetric when one of the intervals is empty. -/
example : ¬ Disjoint ⟨5, 1⟩ ⟨3, 10⟩ ∧ Disjoint ⟨3, 10⟩ ⟨5, 1⟩ := by decide

/-! ### The common part -/

theorem isEmpty_inter_iff (hx : x.lo ≤ x.hi) (hy : y.lo ≤ y.hi) :
    (x.inter y).IsEmpty ↔ x.Disjoint y := by
  simp only [IsEmpty, inter, Disjoint, Precedes, Follows]
  omega

theorem lo_le_hi_inter (hx : x.lo ≤ x.hi) (hy : y.lo ≤ y.hi) (h : ¬ x.Disjoint y) :
    (x.inter y).lo ≤ (x.inter y).hi :=
  Int.not_lt.1 fun hempty => h ((isEmpty_inter_iff hx hy).1 hempty)

/-- **Disjoint intervals share no integer,** and intervals that share none are disjoint. -/
theorem disjoint_iff (hx : x.lo ≤ x.hi) (hy : y.lo ≤ y.hi) :
    x.Disjoint y ↔ ∀ v : Int, ¬ (v ∈ x ∧ v ∈ y) := by
  rw [← isEmpty_inter_iff hx hy, isEmpty_iff]
  exact forall_congr' fun v => not_congr mem_inter

/-- **An interval covers another when it holds all of its integers.** -/
theorem covers_iff (hy : y.lo ≤ y.hi) : x.Covers y ↔ ∀ v ∈ y, v ∈ x := by
  constructor
  · rintro ⟨hlo, hhi⟩ v hv
    exact ⟨Int.le_trans hlo hv.1, Int.le_trans hv.2 hhi⟩
  · intro h
    exact ⟨(h y.lo (lo_mem hy)).1, (h y.hi (hi_mem hy)).2⟩

/-! ### Intervals that touch -/

/-- Two non-empty intervals touch when neither ends two or more below the start of the other. -/
theorem touches_iff (hx : x.lo ≤ x.hi) (hy : y.lo ≤ y.hi) :
    x.Touches y ↔ x.lo ≤ y.hi + 1 ∧ y.lo ≤ x.hi + 1 := by
  simp only [Touches, Adjacent, Disjoint, Precedes, Follows]
  omega

/-- The hull of two intervals that touch is their union. -/
theorem mem_hull (hx : x.lo ≤ x.hi) (hy : y.lo ≤ y.hi) (h : x.Touches y) {v : Int} :
    v ∈ x.hull y ↔ v ∈ x ∨ v ∈ y := by
  rw [touches_iff hx hy] at h
  simp only [mem_def, hull]
  omega

theorem lo_le_hi_hull (hx : x.lo ≤ x.hi) (y : Interval) : (x.hull y).lo ≤ (x.hull y).hi := by
  simp only [hull]
  omega

/-- **The hull is the union only of intervals that touch.** If there is a gap, the hull also holds
the first integer past the lower interval. -/
theorem forall_mem_hull_iff (hx : x.lo ≤ x.hi) (hy : y.lo ≤ y.hi) :
    (∀ v : Int, v ∈ x.hull y ↔ v ∈ x ∨ v ∈ y) ↔ x.Touches y := by
  constructor
  · intro h
    have hpast := h (x.hi + 1)
    have hpast' := h (y.hi + 1)
    rw [touches_iff hx hy]
    simp only [mem_def, hull] at hpast hpast'
    omega
  · exact fun h v => mem_hull hx hy h

/-! ### Intervals that overlap side by side -/

theorem HoldsStart.not_disjoint (h : x.HoldsStart y) : ¬ y.Disjoint x := by
  rintro (hbefore | hafter)
  · exact Int.not_le.2 hbefore.1 h.1
  · exact Int.not_le.2 hafter h.2

theorem StartsInside.not_disjoint (hx : x.lo ≤ x.hi) (h : x.StartsInside y) : ¬ y.Disjoint x := by
  rintro (hbefore | hafter)
  · exact Int.not_le.2 hbefore.2 h.2
  · exact Int.not_le.2 hafter (Int.le_trans (Int.le_of_lt h.1) hx)

theorem StartsInside.asymm (h : x.StartsInside y) : ¬ y.StartsInside x :=
  fun h' => Int.lt_asymm h.1 h'.1

/-- An interval that starts inside another and is not covered by it ends after it. -/
theorem StartsInside.hi_lt (h : x.StartsInside y) (hcovered : ¬ y.Covers x) : y.hi < x.hi :=
  Int.not_le.1 fun hle => hcovered ⟨Int.le_of_lt h.1, hle⟩

/-- Of two intervals that overlap, one holds the start of the other. -/
theorem holdsStart_or_startsInside (hmeet : ¬ x.Disjoint y) :
    y.HoldsStart x ∨ y.StartsInside x := by
  rcases Int.lt_or_le x.lo y.lo with hlt | hle
  · exact .inr ⟨hlt, Int.not_lt.1 fun hend => hmeet (.inl ⟨hlt, hend⟩)⟩
  · exact .inl ⟨hle, Int.not_lt.1 fun hend => hmeet (.inr hend)⟩

/-- If two intervals overlap and neither covers the other, one of them starts inside the other. -/
theorem startsInside_or_startsInside (hmeet : ¬ x.Disjoint y) (hcovers : ¬ x.Covers y)
    (hcovered : ¬ y.Covers x) : x.StartsInside y ∨ y.StartsInside x := by
  rcases holdsStart_or_startsInside hmeet with ⟨hle, hend⟩ | hinside
  · rcases Int.lt_or_eq_of_le hle with hlt | heq
    · exact .inl ⟨hlt, hend⟩
    -- of two intervals with the same start the longer one covers the other
    · rcases Int.le_total x.hi y.hi with hhi | hhi
      · exact absurd ⟨hle, hhi⟩ hcovered
      · exact absurd ⟨Int.le_of_eq heq.symm, hhi⟩ hcovers
  · exact .inr hinside

/-! ### What one interval leaves of another -/

/-- `x` starts before `y` and ends after it, so that `y` leaves two parts of `x`. -/
def Surrounds (x y : Interval) : Prop :=
  x.lo < y.lo ∧ y.hi < x.hi

instance (x y : Interval) : Decidable (x.Surrounds y) :=
  inferInstanceAs (Decidable (_ ∧ _))

theorem Surrounds.startsInside (hy : y.lo ≤ y.hi) (h : x.Surrounds y) : y.StartsInside x :=
  ⟨h.1, Int.le_of_lt (Int.lt_of_le_of_lt hy h.2)⟩

/-- Nothing is answered when all of `x` is left. -/
theorem remainder?_of_disjoint (hy : y.lo ≤ y.hi) (h : x.Disjoint y) : x.remainder? y = none := by
  have hstart : ¬ y.HoldsStart x := fun hstart => hstart.not_disjoint h
  have hinside : ¬ y.StartsInside x := fun hinside => hinside.not_disjoint hy h
  rw [remainder?, if_neg hstart, if_neg hinside]
  rfl

/-- Nothing is answered when nothing of `x` is left. -/
theorem remainder?_of_covers (hx : x.lo ≤ x.hi) (h : y.Covers x) : x.remainder? y = none := by
  have hstart : y.HoldsStart x := ⟨h.1, Int.le_trans hx h.2⟩
  have hempty : (⟨max x.lo (y.hi + 1), x.hi⟩ : Interval).IsEmpty :=
    Int.lt_of_lt_of_le (Int.lt_add_one_of_le h.2) (Int.le_max_right _ _)
  rw [remainder?, if_pos hstart]
  exact Option.filter_some_neg (by simpa using hempty)

/-- If `y` holds the start of `x`, the part of `x` past `y` is left. -/
theorem remainder?_of_holdsStart (h : y.HoldsStart x) (hlt : y.hi < x.hi) :
    x.remainder? y = some ⟨y.hi + 1, x.hi⟩ := by
  have hmax : max x.lo (y.hi + 1) = y.hi + 1 := Int.max_eq_right (Int.le_add_one h.2)
  have hrest : ¬ (⟨y.hi + 1, x.hi⟩ : Interval).IsEmpty := Int.not_lt.2 hlt
  rw [remainder?, if_pos h, hmax]
  exact Option.filter_some_pos (decide_eq_true hrest)

/-- If `y` starts inside `x`, the part of `x` before `y` is left. -/
theorem remainder?_of_startsInside (h : y.StartsInside x) :
    x.remainder? y = some ⟨x.lo, y.lo - 1⟩ := by
  have hstart : ¬ y.HoldsStart x := fun hstart => Int.not_le.2 h.1 hstart.1
  have hrest : ¬ (⟨x.lo, y.lo - 1⟩ : Interval).IsEmpty := Int.not_lt.2 (Int.le_sub_one_of_lt h.1)
  rw [remainder?, if_neg hstart, if_pos h]
  exact Option.filter_some_pos (decide_eq_true hrest)

/-- When some of `x` is left and not all of it, it is the part past `y` or the part before `y` that
is answered. -/
theorem remainder?_cases (hmeet : ¬ x.Disjoint y) (hcovered : ¬ y.Covers x) :
    y.HoldsStart x ∧ x.remainder? y = some ⟨y.hi + 1, x.hi⟩ ∨
      y.StartsInside x ∧ x.remainder? y = some ⟨x.lo, y.lo - 1⟩ := by
  rcases holdsStart_or_startsInside hmeet with hstart | hinside
  · have hlt : y.hi < x.hi := Int.not_le.1 fun hle => hcovered ⟨hstart.1, hle⟩
    exact .inl ⟨hstart, remainder?_of_holdsStart hstart hlt⟩
  · exact .inr ⟨hinside, remainder?_of_startsInside hinside⟩

/-- **Nothing is answered** when all of `x` is left or nothing of it, and only then. -/
theorem remainder?_eq_none_iff (hx : x.lo ≤ x.hi) (hy : y.lo ≤ y.hi) :
    x.remainder? y = none ↔ x.Disjoint y ∨ y.Covers x := by
  constructor
  · intro hnone
    refine Decidable.or_iff_not_imp_left.2 fun hmeet => Decidable.byContradiction fun hcovered => ?_
    rcases remainder?_cases hmeet hcovered with ⟨-, heq⟩ | ⟨-, heq⟩
    · cases hnone.symm.trans heq
    · cases hnone.symm.trans heq
  · rintro (hapart | hcovered)
    · exact remainder?_of_disjoint hy hapart
    · exact remainder?_of_covers hx hcovered

/-- **All that is left is answered,** unless `y` leaves two parts of `x`. -/
theorem exists_remainder? (hone : ¬ x.Surrounds y) (hmeet : ¬ x.Disjoint y)
    (hcovered : ¬ y.Covers x) :
    ∃ r, x.remainder? y = some r ∧ ∀ v : Int, v ∈ r ↔ v ∈ x ∧ v ∉ y := by
  rcases remainder?_cases hmeet hcovered with ⟨⟨hlo, hend⟩, heq⟩ | ⟨⟨hlo, hend⟩, heq⟩
  · refine ⟨_, heq, fun v => ?_⟩
    simp only [mem_def]
    omega
  · have hhi : x.hi ≤ y.hi := Int.not_lt.1 fun hlt => hone ⟨hlo, hlt⟩
    refine ⟨_, heq, fun v => ?_⟩
    simp only [mem_def]
    omega

/-- **Of two parts the left one is answered.** -/
theorem exists_remainder?_of_surrounds (hy : y.lo ≤ y.hi) (htwo : x.Surrounds y) :
    ∃ r, x.remainder? y = some r ∧ ∀ v : Int, v ∈ r ↔ v ∈ x ∧ ∀ w ∈ y, v < w := by
  refine ⟨_, remainder?_of_startsInside (htwo.startsInside hy), fun v => ?_⟩
  have hbefore : (∀ w ∈ y, v < w) ↔ v < y.lo :=
    ⟨fun hv => hv y.lo (lo_mem hy), fun hv w hw => Int.lt_of_lt_of_le hv hw.1⟩
  obtain ⟨hlo, hhi⟩ := htwo
  rw [hbefore]
  simp only [mem_def]
  omega

/-! ### All positions -/

/-- What the relations between `x` and `y`, and the intervals made of the two, say about the
integers of `x` and `y`. -/
structure PositionLaws (x y : Interval) : Prop where
  /-- Of three positions the two are in exactly one. -/
  one_of_three :
    (x.Precedes y ∧ ¬ y.Precedes x ∧ x.Disjoint y) ∨
      (¬ x.Precedes y ∧ y.Precedes x ∧ x.Disjoint y) ∨
      (¬ x.Precedes y ∧ ¬ y.Precedes x ∧ ¬ x.Disjoint y)
  precedes : x.Precedes y ↔ ∀ v ∈ x, ∀ w ∈ y, v < w
  disjoint_symm : x.Disjoint y ↔ y.Disjoint x
  disjoint : x.Disjoint y ↔ ∀ v : Int, ¬ (v ∈ x ∧ v ∈ y)
  covers : x.Covers y ↔ ∀ v ∈ y, v ∈ x
  mem_inter : ∀ v : Int, v ∈ x.inter y ↔ v ∈ x ∧ v ∈ y
  inter_isEmpty : (x.inter y).IsEmpty ↔ x.Disjoint y
  /-- The hull is the union when the two touch, and only then. -/
  hull : (∀ v : Int, v ∈ x.hull y ↔ v ∈ x ∨ v ∈ y) ↔ x.Adjacent y ∨ ¬ x.Disjoint y
  /-- If the two overlap side by side, one of them starts inside the other and ends after it. -/
  side_by_side : ¬ x.Disjoint y → ¬ x.Covers y → ¬ y.Covers x →
    Xor (x.StartsInside y) (y.StartsInside x) ∧
      (x.StartsInside y → y.hi < x.hi) ∧ (y.StartsInside x → x.hi < y.hi)
  remainder_eq_none : x.remainder? y = none ↔ x.Disjoint y ∨ y.Covers x
  remainder : ¬ x.Surrounds y → ¬ x.Disjoint y → ¬ y.Covers x →
    ∃ r, x.remainder? y = some r ∧ ∀ v : Int, v ∈ r ↔ v ∈ x ∧ v ∉ y
  /-- If `y` leaves two parts of `x`, the left one is answered. -/
  remainder_surrounded : x.Surrounds y →
    ∃ r, x.remainder? y = some r ∧ ∀ v : Int, v ∈ r ↔ v ∈ x ∧ ∀ w ∈ y, v < w

/-- **The relations are right about all positions of two non-empty intervals.** They say what is
true of the integers that the two hold, and of the positions that they tell apart the two are always
in one and never in two. -/
theorem position_laws (hx : x.lo ≤ x.hi) (hy : y.lo ≤ y.hi) : x.PositionLaws y where
  one_of_three := by
    have hdisjoint := disjoint_iff_precedes (x := x) hy
    by_cases hxy : x.Precedes y
    · exact .inl ⟨hxy, hxy.asymm, hdisjoint.2 (.inl hxy)⟩
    · by_cases hyx : y.Precedes x
      · exact .inr (.inl ⟨hxy, hyx, hdisjoint.2 (.inr hyx)⟩)
      · exact .inr (.inr ⟨hxy, hyx, fun h => (hdisjoint.1 h).elim hxy hyx⟩)
  precedes := precedes_iff hx hy
  disjoint_symm := disjoint_comm hx hy
  disjoint := disjoint_iff hx hy
  covers := covers_iff hy
  mem_inter _ := Interval.mem_inter
  inter_isEmpty := isEmpty_inter_iff hx hy
  hull := forall_mem_hull_iff hx hy
  side_by_side hmeet hcovers hcovered := by
    refine ⟨?_, fun h => h.hi_lt hcovered, fun h => h.hi_lt hcovers⟩
    rcases startsInside_or_startsInside hmeet hcovers hcovered with h | h
    · exact .inl ⟨h, h.asymm⟩
    · exact .inr ⟨h, h.asymm⟩
  remainder_eq_none := remainder?_eq_none_iff hx hy
  remainder := exists_remainder?
  remainder_surrounded := exists_remainder?_of_surrounds hy

/-- Two intervals with distant bounds, side by side. The one that starts inside the other ends after
it, and leaves of it the part before its own start. -/
theorem position_laws_side_by_side :
    let x : Interval := ⟨-1180591620717411303424, 5⟩
    let y : Interval := ⟨3, 1180591620717411303424⟩
    (x.lo ≤ x.hi ∧ y.lo ≤ y.hi) ∧ x.PositionLaws y ∧
      (Xor (x.StartsInside y) (y.StartsInside x) ∧ x.hi < y.hi) ∧
      ∃ r, x.remainder? y = some r ∧ ∀ v : Int, v ∈ r ↔ v ∈ x ∧ v ∉ y := by
  intro x y
  have hx : x.lo ≤ x.hi := by decide
  have hy : y.lo ≤ y.hi := by decide
  have hlaws : x.PositionLaws y := position_laws hx hy
  have hmeet : ¬ x.Disjoint y := by decide
  have hcovers : ¬ x.Covers y := by decide
  have hcovered : ¬ y.Covers x := by decide
  obtain ⟨hone, -, hend⟩ := hlaws.side_by_side hmeet hcovers hcovered
  exact ⟨⟨hx, hy⟩, hlaws, ⟨hone, hend (by decide)⟩,
    hlaws.remainder (by decide) hmeet hcovered⟩

end SymbolSets.Interval
