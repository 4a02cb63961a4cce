import Mathlib.Algebra.Order.Field.Rat
import Mathlib.Order.Compare
import Mathlib.Tactic.SplitIfs
import SymbolSets.Enumerated

/-!
# Numbers among the elements

A truth value, an integer and a double are one element if they are the same number. The order of
values puts numbers in front of everything else, in the order of their sizes. As long as nothing but
a set kept by runs is filed under a digest, the order of elements does the same, and so the elements
of a set begin with numbers that ascend.

Nothing is said of the elements behind the numbers: sets that hold the same are one element, which
the order of elements cannot see.

## Main definitions

* `Value.number?`, `Element.number?`: the rational number that a value or an element is.
* `Element.IsFiled`: a number is filed under no digest.
* `Element.Precedes`: an element that comes before another one if that is a number.

## Main results

* `Value.order_of_numbers`: numbers are ordered by size.
* `Element.order_eq_lt_iff`, `Element.order_ne_gt_iff`: the elements before a number.
* `Element.precedes_of_order_lt`, `Element.precedes_of_order_gt`, `Element.number?_eq_of_order_eq`:
  what the order of two elements tells about them.
-/

namespace SymbolSets

/-! ### Values -/

namespace Value

/-- The number that a value is. -/
def number? (v : Value) : Option ℚ :=
  v.fraction?.map fun f => f.1 / f.2

variable {v w : Value} {p q : ℚ}

theorem denominator_pos {f : Int × Nat} (h : v.fraction? = some f) : 0 < f.2 := by
  cases v with
  | bool b =>
    cases h
    exact Nat.one_pos
  | int n =>
    cases h
    exact Nat.one_pos
  | double x =>
    cases h
    exact Nat.mul_pos Nat.one_pos (Nat.pow_pos Nat.two_pos)
  | _ => cases h

theorem fraction?_of_int? {n : Int} (h : v.int? = some n) : v.fraction? = some (n, 1) := by
  cases v with
  | bool b =>
    cases h
    rfl
  | int m =>
    cases h
    rfl
  | _ => cases h

/-- An integer is the number that it is. -/
theorem number?_of_int? {n : Int} (h : v.int? = some n) : v.number? = some (n : ℚ) := by
  rw [number?, fraction?_of_int? h]
  simp

theorem number?_eq_none_iff : v.number? = none ↔ v.fraction? = none := by
  rw [number?, Option.map_eq_none_iff]

/-- **Numbers are ordered by size,** which is compared by cross-multiplication. -/
theorem order_of_numbers (hv : v.number? = some p) (hw : w.number? = some q) :
    v.order w = compare p q := by
  obtain ⟨⟨a, b⟩, hab, rfl⟩ := Option.map_eq_some_iff.1 hv
  obtain ⟨⟨c, d⟩, hcd, rfl⟩ := Option.map_eq_some_iff.1 hw
  have hb : (0 : ℚ) < b := Nat.cast_pos.2 (denominator_pos hab)
  have hd : (0 : ℚ) < d := Nat.cast_pos.2 (denominator_pos hcd)
  have hlt : a * d < c * b ↔ (a / b : ℚ) < c / d := by
    rw [div_lt_div_iff₀ hb hd]
    exact_mod_cast Iff.rfl
  have heq : a * d = c * b ↔ (a / b : ℚ) = c / d := by
    rw [div_eq_div_iff hb.ne' hd.ne']
    exact_mod_cast Iff.rfl
  rw [order.eq_def, hab, hcd]
  rcases lt_trichotomy (a / b : ℚ) (c / d) with h | h | h
  · exact (compare_lt_iff_lt.2 (hlt.2 h)).trans (compare_lt_iff_lt.2 h).symm
  · exact (compare_eq_iff_eq.2 (heq.2 h)).trans (compare_eq_iff_eq.2 h).symm
  · have hgt : c * b < a * d := by
      rw [div_lt_div_iff₀ hd hb] at h
      exact_mod_cast h
    exact (compare_gt_iff_gt.2 hgt).trans (compare_gt_iff_gt.2 h).symm

theorem rank_eq_zero (hv : v.number? = some p) : v.rank = 0 := by
  cases v with
  | bool b => rfl
  | int n => rfl
  | double x => rfl
  | _ => cases hv

theorem rank_pos (hv : v.number? = none) : 0 < v.rank := by
  cases v with
  | bool b => cases hv
  | int n => cases hv
  | double x => cases hv
  | _ => exact Nat.succ_pos _

/-- A number comes before what is none. -/
theorem order_of_number_left (hv : v.number? = some p) (hw : w.number? = none) :
    v.order w = .lt := by
  have hrank : compare v.rank w.rank = .lt := by
    rw [rank_eq_zero hv]
    exact compare_lt_iff_lt.2 (rank_pos hw)
  rw [← hrank, order.eq_def, number?_eq_none_iff.1 hw]
  cases v with
  | bool b => rfl
  | int n => rfl
  | double x => rfl
  | _ => cases hv

theorem order_of_number_right (hv : v.number? = none) (hw : w.number? = some q) :
    v.order w = .gt := by
  have hrank : compare v.rank w.rank = .gt := by
    rw [rank_eq_zero hw]
    exact compare_gt_iff_gt.2 (rank_pos hv)
  rw [← hrank, order.eq_def, number?_eq_none_iff.1 hv]
  cases w with
  | bool b => cases v <;> rfl
  | int n => cases v <;> rfl
  | double x => cases v <;> rfl
  | _ => cases hw

end Value

/-! ### Elements -/

namespace Element

/-- The number that an element is. -/
def number? (e : Element) : Option ℚ :=
  e.value.number?

/-- A number is filed under no digest. -/
def IsFiled (e : Element) : Prop :=
  e.number?.isSome → e.digest = 0

/-- If `b` is a number, then `a` is a smaller one. -/
def Precedes (a b : Element) : Prop :=
  ∀ q, b.number? = some q → ∃ p, a.number? = some p ∧ p < q

variable {a b c e f : Element} {p q : ℚ}

theorem isFiled_ofValue (runsAt : Nat → Runs) (v : Value) : (ofValue runsAt v).IsFiled := by
  intro h
  cases v with
  | runs place => cases h
  | _ => rfl

@[simp] theorem value_ofValue (runsAt : Nat → Runs) (v : Value) : (ofValue runsAt v).value = v := by
  cases v with
  | runs place => rfl
  | _ => rfl

theorem Precedes.trans (hab : a.Precedes b) (hbc : b.Precedes c) : a.Precedes c := by
  intro r hr
  obtain ⟨q, hq, hqr⟩ := hbc r hr
  obtain ⟨p, hp, hpq⟩ := hab q hq
  exact ⟨p, hp, hpq.trans hqr⟩

instance : Trans Precedes Precedes Precedes :=
  ⟨Precedes.trans⟩

/-- Whether an element comes before another one depends on the numbers that they are. -/
theorem Precedes.congr_left (h : a.Precedes c) (hab : a.number? = b.number?) : b.Precedes c := by
  intro r hr
  rw [← hab]
  exact h r hr

theorem precedes_of_number?_eq_none (h : b.number? = none) : a.Precedes b := by
  intro q hq
  rw [h] at hq
  cases hq

/-- What comes after something that is no number is none either. -/
theorem Precedes.number?_eq_none (h : a.Precedes b) (ha : a.number? = none) :
    b.number? = none := by
  refine Option.eq_none_iff_forall_ne_some.2 fun q hq => ?_
  obtain ⟨p, hp, -⟩ := h q hq
  rw [ha] at hp
  cases hp

/-- Elements that are numbers are ordered by size. -/
theorem order_of_numbers (ha : a.IsFiled) (hb : b.IsFiled) (hp : a.number? = some p)
    (hq : b.number? = some q) : a.order b = compare p q := by
  have hdigest : a.digest = b.digest := by
    rw [ha (by rw [hp]; rfl), hb (by rw [hq]; rfl)]
  rw [order, Value.order_of_numbers hp hq, hdigest, compare_eq_iff_eq.2 rfl, Ordering.then_eq]

theorem order_of_number_left (hp : a.number? = some p) (hb : b.number? = none) :
    a.order b = .lt := by
  rw [order, Value.order_of_number_left hp hb]
  rfl

theorem order_of_number_right (ha : a.number? = none) (hq : b.number? = some q) :
    a.order b = .gt := by
  rw [order, Value.order_of_number_right ha hq]
  rfl

/-- The elements before a number are the smaller numbers. -/
theorem order_eq_lt_iff (hf : f.IsFiled) (he : e.IsFiled) (hq : e.number? = some q) :
    f.order e = .lt ↔ ∃ p, f.number? = some p ∧ p < q := by
  cases hp : f.number? with
  | none => simp [order_of_number_right hp hq]
  | some p => simp [order_of_numbers hf he hp hq, compare_lt_iff_lt]

/-- The elements that do not come after a number are the numbers that are not greater. -/
theorem order_ne_gt_iff (hf : f.IsFiled) (he : e.IsFiled) (hq : e.number? = some q) :
    f.order e ≠ .gt ↔ ∃ p, f.number? = some p ∧ p ≤ q := by
  cases hp : f.number? with
  | none => simp [order_of_number_right hp hq]
  | some p => simp [order_of_numbers hf he hp hq, compare_gt_iff_gt]

theorem precedes_of_order_lt (ha : a.IsFiled) (hb : b.IsFiled) (h : a.order b = .lt) :
    a.Precedes b :=
  fun _ hq => (order_eq_lt_iff ha hb hq).1 h

theorem precedes_of_order_gt (ha : a.IsFiled) (hb : b.IsFiled) (h : a.order b = .gt) :
    b.Precedes a := by
  intro p hp
  cases hq : b.number? with
  | none =>
    rw [order_of_number_left hp hq] at h
    cases h
  | some q =>
    rw [order_of_numbers ha hb hp hq] at h
    exact ⟨q, rfl, compare_gt_iff_gt.1 h⟩

/-- Elements between which there is no order are the same number, or none. -/
theorem number?_eq_of_order_eq (h : a.order b = .eq) : a.number? = b.number? := by
  have hvalue : a.value.order b.value = .eq := (Ordering.then_eq_eq.1 h).1
  cases hp : a.number? with
  | none =>
    cases hq : b.number? with
    | none => rfl
    | some q =>
      rw [Value.order_of_number_right hp hq] at hvalue
      cases hvalue
  | some p =>
    cases hq : b.number? with
    | none =>
      rw [Value.order_of_number_left hp hq] at hvalue
      cases hvalue
    | some q =>
      rw [Value.order_of_numbers hp hq] at hvalue
      rw [compare_eq_iff_eq.1 hvalue]

/-- A number is the same element as what is not ordered before or after it. -/
theorem isSame_of_order_eq (runsAt : Nat → Runs) (h : a.order b = .eq) (hp : a.number? = some p) :
    a.isSame runsAt b = true := by
  rw [isSame, h]
  obtain ⟨v, digest⟩ := a
  cases v with
  | runs place => cases hp
  | _ => rfl

theorem order_eq_of_isSame {runsAt : Nat → Runs} (h : a.isSame runsAt b = true) :
    a.order b = .eq := by
  rw [isSame, Bool.and_eq_true] at h
  exact beq_iff_eq.1 h.1

end Element

end SymbolSets
