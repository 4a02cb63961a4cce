import Mathlib.Tactic.Ring
import SymbolSets.Proofs.Store.Extension

/-!
# What a collection adds

A set takes a collection run by run if the collection is kept by runs, as a progression if it is
one, and item by item otherwise. In each case it takes the integers that are the items of the
collection as it is iterated, and no others.

## Main definitions

* `Store.BreaksAfter`: a collection gives some integers and then stops, by an item that is none or
  by a fault of its own.

## Main results

* `Additions.next?_of_intervals?_cons`: the intervals of a collection come in turn.
* `Store.exists_additions?_of_items?`: a collection of integers adds its items and no others.
* `Store.exists_breaksAfter`, `Store.exists_additions?_of_breaksAfter`: collections that give some
  integers before they stop.
-/

namespace SymbolSets

namespace Progression

theorem count_of_pos {p : Progression} (h : 0 < p.step) :
    p.count = ((p.stop - p.start + p.step - 1) / p.step).toNat := by
  rw [count, if_pos h]

theorem count_of_neg {p : Progression} (h : p.step < 0) :
    p.count = ((p.start - p.stop - p.step - 1) / -p.step).toNat := by
  rw [count, if_neg (by omega), if_pos h]

/-- A progression without its first integer has one integer less. -/
theorem count_rest {p : Progression} (h : p.count ≠ 0) : p.rest.count + 1 = p.count := by
  rcases Int.lt_trichotomy p.step 0 with hstep | hstep | hstep
  · have hrest : p.rest.count = ((p.start + p.step - p.stop - p.step - 1) / -p.step).toNat :=
      count_of_neg hstep
    have hnumerator : p.start - p.stop - p.step - 1 =
        (p.start + p.step - p.stop - p.step - 1) + 1 * -p.step := by ring
    rw [count_of_neg hstep, hnumerator, Int.add_mul_ediv_right _ _ (by omega)] at h ⊢
    rw [hrest]
    omega
  · exact absurd (by simp [count, hstep]) h
  · have hrest : p.rest.count = ((p.stop - (p.start + p.step) + p.step - 1) / p.step).toNat :=
      count_of_pos hstep
    have hnumerator : p.stop - p.start + p.step - 1 =
        (p.stop - (p.start + p.step) + p.step - 1) + 1 * p.step := by ring
    rw [count_of_pos hstep, hnumerator, Int.add_mul_ediv_right _ _ (by omega)] at h ⊢
    rw [hrest]
    omega

theorem elements_eq_nil {p : Progression} (h : p.count = 0) : p.elements = [] := by
  simp [elements, take, h]

theorem elements_eq_cons {p : Progression} (h : p.count ≠ 0) :
    p.elements = p.start :: p.rest.elements := by
  rw [elements, elements, take, take, Nat.min_self, Nat.min_self, ← count_rest h,
    List.range_succ_eq_map, List.map_cons, List.map_map]
  congr 1
  · simp
  · refine List.map_congr_left fun i _ => ?_
    simp only [Function.comp_apply, rest, Nat.succ_eq_add_one, Nat.cast_add, Nat.cast_one]
    ring

theorem length_elements (p : Progression) : p.elements.length = p.count := by
  simp [elements, take]

end Progression

namespace Value

/-- A truth value as an item is a shared interval, so it is written as an integer. -/
theorem single?_of_int? {v : Value} {n : Int} (h : v.int? = some n) :
    v.single? = .ok (Span.single n) := by
  cases v with
  | int k =>
    cases h
    change Except.ok (Span.of (.int k) (.int k)) = _
    rw [Span.of]
    split_ifs <;> rfl
  | bool b =>
    cases h
    cases b <;> rfl
  | _ => cases h

theorem single?_of_int?_eq_none {v : Value} (h : v.int? = none) :
    v.single? = .error (.boundsNotIntegers v.kind v.kind) := by
  rw [single?, interval?, Option.map_eq_none_iff.1 h]

theorem lo_le_hi_of_single? {v : Value} {x : Span} (h : v.single? = .ok x) :
    x.interval.lo ≤ x.interval.hi := by
  cases hv : v.int? with
  | none =>
    rw [single?_of_int?_eq_none hv] at h
    cases h
  | some n =>
    rw [single?_of_int? hv] at h
    cases h
    exact Int.le_refl n

/-- The interval between two integers, however they are written. -/
theorem exists_interval?_of_int? {v w : Value} {lo hi : Int} (hv : v.int? = some lo)
    (hw : w.int? = some hi) : ∃ x, interval? v w = .ok x ∧ x.interval = ⟨lo, hi⟩ := by
  obtain ⟨a, ha, rfl⟩ := Option.map_eq_some_iff.1 hv
  obtain ⟨b, hb, rfl⟩ := Option.map_eq_some_iff.1 hw
  exact ⟨.of a b, by rw [interval?, ha, hb], Span.interval_of a b⟩

end Value

namespace Additions

theorem next?_of_intervals?_nil : {added : Additions} → added.intervals? = .ok [] →
    added.next? = none
  | .items [], _ => rfl
  | .items (x :: xs), h => by
    rw [intervals?, List.mapM_cons] at h
    obtain ⟨y, -, h⟩ := bind_eq_ok_iff.1 h
    obtain ⟨ys, -, h⟩ := bind_eq_ok_iff.1 h
    cases h
  | .progression p, h => by
    have hcount : p.count = 0 := by
      rw [intervals?, Except.ok.injEq, List.map_eq_nil_iff] at h
      rw [← p.length_elements, h, List.length_nil]
    rw [next?, if_pos hcount]

/-- The first of the intervals comes first, and the others are left. -/
theorem next?_of_intervals?_cons {x : Span} {xs : List Span} : {added : Additions} →
    added.intervals? = .ok (x :: xs) →
      ∃ rest : Additions, added.next? = some (.ok x, rest) ∧ rest.intervals? = .ok xs
  | .items [], h => by cases h
  | .items (y :: ys), h => by
    rw [intervals?, List.mapM_cons] at h
    obtain ⟨z, hz, h⟩ := bind_eq_ok_iff.1 h
    obtain ⟨zs, hzs, h⟩ := bind_eq_ok_iff.1 h
    cases h
    exact ⟨.items ys, by rw [next?, show y = .ok x from hz], hzs⟩
  | .progression p, h => by
    by_cases hcount : p.count = 0
    · rw [intervals?, p.elements_eq_nil hcount] at h
      cases h
    · rw [intervals?, p.elements_eq_cons hcount] at h
      cases h
      exact ⟨.progression p.rest, by rw [next?, if_neg hcount], rfl⟩

/-- The intervals of integers are those of one integer each. -/
theorem intervals?_items_single {items : List Value} (h : ∀ w ∈ items, w.int?.isSome) :
    (Additions.items (items.map Value.single?)).intervals? =
      .ok ((items.filterMap Value.int?).map Span.single) := by
  rw [intervals?]
  induction items with
  | nil => rfl
  | cons w items ih =>
    obtain ⟨n, hn⟩ := Option.isSome_iff_exists.1 (h w List.mem_cons_self)
    rw [List.map_cons, List.mapM_cons, Value.single?_of_int? hn,
      ih fun u hu => h u (List.mem_cons_of_mem w hu), List.filterMap_cons_some hn]
    rfl

/-- As many intervals are added as there are. -/
theorem count_of_intervals? {xs : List Span} : {added : Additions} →
    added.intervals? = .ok xs → added.count = xs.length
  | .items ys, h => by
    rw [intervals?] at h
    rw [count]
    induction ys generalizing xs with
    | nil =>
      cases h
      rfl
    | cons y ys ih =>
      rw [List.mapM_cons] at h
      obtain ⟨z, -, h⟩ := bind_eq_ok_iff.1 h
      obtain ⟨zs, hzs, h⟩ := bind_eq_ok_iff.1 h
      cases h
      rw [List.length_cons, List.length_cons, ih hzs]
  | .progression p, h => by
    cases h
    rw [count, List.length_map, p.length_elements]

/-- Intervals that are given as they are. -/
theorem intervals?_items_ok (xs : List Span) :
    (Additions.items (xs.map .ok)).intervals? = .ok xs := by
  rw [intervals?]
  induction xs with
  | nil => rfl
  | cons x xs ih =>
    rw [List.map_cons, List.mapM_cons, ih]
    rfl

theorem count_ne_zero_of_next? {added : Additions}
    {next : Except Fault Span × Additions} (h : added.next? = some next) :
    added.count ≠ 0 := by
  cases added with
  | items xs =>
    cases xs with
    | nil => cases h
    | cons x xs => exact Nat.succ_ne_zero xs.length
  | progression p =>
    rw [next?] at h
    split_ifs at h with hcount
    exact hcount

end Additions

theorem Span.map_interval_single (ns : List Int) :
    (ns.map Span.single).map Span.interval = ns.map Interval.single := by
  rw [List.map_map]
  rfl

theorem Runs.holds_map_single {ns : List Int} {v : Int} :
    Runs.Holds (ns.map Interval.single) v ↔ v ∈ ns := by
  simp [Runs.Holds, Interval.mem_single]

/-- A row of values consists of integers, or there is a first value that is none. -/
theorem exists_first_bad (items : List Value) :
    (∀ w ∈ items, w.int?.isSome) ∨ ∃ before bad after, items = before ++ bad :: after ∧
      (∀ w ∈ before, w.int?.isSome) ∧ bad.int? = none := by
  cases hfind : items.find? fun w => w.int?.isNone with
  | none =>
    refine .inl fun w hw => ?_
    simpa [Option.isSome_iff_ne_none] using List.find?_eq_none.1 hfind w hw
  | some bad =>
    obtain ⟨hbad, before, after, hitems, hbefore⟩ := List.find?_eq_some_iff_append.1 hfind
    exact .inr ⟨before, bad, after, hitems, fun w hw => by simpa using hbefore w hw,
      Option.isNone_iff_eq_none.1 hbad⟩

theorem filterMap_int?_map_int (ns : List Int) : (ns.map Value.int).filterMap Value.int? = ns := by
  rw [List.filterMap_map]
  exact List.filterMap_some

namespace Store

variable {σ : Store}

/-- A collection other than a set kept by runs or a progression is added item by item. -/
theorem additions?_cases (σ : Store) (v : Value) :
    (∃ place, v = .runs place) ∨ (∃ p, v = .progression p) ∨
      σ.additions? v = (σ.pulled? v).map fun (items, broken) =>
        .items (items.map Value.single? ++ broken.toList.map .error) := by
  cases v with
  | runs place => exact .inl ⟨place, rfl⟩
  | progression p => exact .inr (.inl ⟨p, rfl⟩)
  | _ => exact .inr (.inr rfl)

/-- If it does not break off, nothing comes behind the items. -/
theorem additions?_cases_of_items? {v : Value} {items : List Value} (h : σ.items? v = .ok items) :
    (∃ place, v = .runs place) ∨ (∃ p, v = .progression p) ∨
      σ.additions? v = .ok (.items (items.map Value.single?)) := by
  refine (σ.additions?_cases v).imp_right (Or.imp_right fun hadditions => ?_)
  rw [hadditions, pulled?_eq_ok_none_iff.2 h]
  exact congrArg _ (congrArg _ (List.append_nil _))

/-- **What a collection of integers adds.** However it is taken, it adds the integers that are its
items and no others. -/
theorem exists_additions?_of_items? {v : Value} {items : List Value} (h : σ.items? v = .ok items)
    (hints : ∀ w ∈ items, w.int?.isSome) :
    ∃ added xs, σ.additions? v = .ok added ∧ added.intervals? = .ok xs ∧
      ∀ n, Runs.Holds (xs.map Span.interval) n ↔ n ∈ items.filterMap Value.int? := by
  rcases additions?_cases_of_items? h with ⟨place, rfl⟩ | ⟨p, rfl⟩ | hadditions
  · cases h
    refine ⟨_, _, rfl, Additions.intervals?_items_ok (σ.spelledAt place).spans, fun n => ?_⟩
    rw [filterMap_int?_map_int, SpelledRuns.map_interval_spans, runs_spelledAt, Runs.mem_elements]
  · cases h
    refine ⟨_, _, rfl, rfl, fun n => ?_⟩
    rw [filterMap_int?_map_int, Span.map_interval_single, Runs.holds_map_single]
  · refine ⟨_, _, hadditions, Additions.intervals?_items_single hints, fun n => ?_⟩
    rw [Span.map_interval_single, Runs.holds_map_single]

/-- The collection `v` gives the integers `before` and then stops with `fault`: its next item is no
integer, or it breaks off. -/
def BreaksAfter (σ : Store) (v : Value) (before : List Value) (fault : Fault) : Prop :=
  (∀ w ∈ before, w.int?.isSome) ∧ ∃ items broken, σ.pulled? v = .ok (items, broken) ∧
    ((∃ bad after, items = before ++ bad :: after ∧ bad.int? = none ∧
        fault = .boundsNotIntegers bad.kind bad.kind) ∨
      items = before ∧ broken = some fault)

/-- What is pulled from a collection is a whole row of integers, or the collection stops. -/
theorem exists_breaksAfter {v : Value} {items : List Value} {broken : Option Fault}
    (h : σ.pulled? v = .ok (items, broken)) :
    ((∀ w ∈ items, w.int?.isSome) ∧ broken = none) ∨
      ∃ before fault, σ.BreaksAfter v before fault := by
  rcases exists_first_bad items with hints | ⟨before, bad, after, hitems, hbefore, hbad⟩
  · cases broken with
    | none => exact .inl ⟨hints, rfl⟩
    | some fault => exact .inr ⟨items, fault, hints, items, _, h, .inr ⟨rfl, rfl⟩⟩
  · exact .inr ⟨before, _, hbefore, items, broken, h, .inl ⟨bad, after, hitems, hbad, rfl⟩⟩

/-- A whole row of integers does not stop. -/
theorem not_breaksAfter_of_ints {v : Value} {ns : List Int} {before : List Value} {fault : Fault}
    (h : σ.pulled? v = .ok (ns.map .int, none)) : ¬ σ.BreaksAfter v before fault := by
  rintro ⟨-, items, broken, hpulled, hstops⟩
  cases h.symm.trans hpulled
  rcases hstops with ⟨bad, after, hitems, hbad, -⟩ | ⟨-, hbroken⟩
  · have hmem : bad ∈ ns.map Value.int := hitems ▸ List.mem_append_right _ List.mem_cons_self
    obtain ⟨n, -, rfl⟩ := List.mem_map.1 hmem
    cases hbad
  · cases hbroken

/-- A collection that stops is added item by item, and the fault comes behind the integers. -/
theorem exists_additions?_of_breaksAfter {v : Value} {before : List Value} {fault : Fault}
    (h : σ.BreaksAfter v before fault) : ∃ after,
      σ.additions? v = .ok (.items (before.map Value.single? ++ .error fault :: after)) := by
  rcases σ.additions?_cases v with ⟨i, rfl⟩ | ⟨p, rfl⟩ | hadditions
  · exact absurd h (not_breaksAfter_of_ints rfl)
  · exact absurd h (not_breaksAfter_of_ints rfl)
  · obtain ⟨-, items, broken, hpulled, hstops⟩ := h
    rw [hpulled] at hadditions
    rcases hstops with ⟨bad, after, rfl, hbad, rfl⟩ | ⟨rfl, rfl⟩
    · refine ⟨after.map Value.single? ++ broken.toList.map .error, hadditions.trans ?_⟩
      simp only [Except.map, List.map_append, List.map_cons, List.append_assoc, List.cons_append,
        Value.single?_of_int?_eq_none hbad]
    · exact ⟨[], hadditions⟩

end Store

end SymbolSets
