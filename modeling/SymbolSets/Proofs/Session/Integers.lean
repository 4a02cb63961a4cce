import Mathlib.Data.List.Sort
import SymbolSets.Proofs.Session.Agreement
import SymbolSets.Proofs.Session.Ordered

/-!
# Sets of integers of either kind

A set of integers is kept by runs or one by one. Either way it lists its integers in ascending
order, and either way the operators with a collection of integers do what they stand for and keep
the set as it is kept.

## Main definitions

* `Enumerated.Integral`, `Enumerated.IsIntSet`: all elements are integers, and they are in order.
* `Contents.IsIntSet`, `Contents.Holds`: sets of integers, and the integers that they hold.
* `Contents.ints`: the integers of a set in the order in which it lists them.

## Main results

* `Contents.exists_combine`: what a set of integers is combined with a collection to.
* `Store.lists_of_contents?`, `Store.Lists.isIntSet`: a set of integers lists the integers that it
  holds, and a set that lists integers is a set of integers.
-/

namespace SymbolSets

variable {σ : Store} {v : Value} {ns : List Int} {n : Int}

namespace Value

theorem isElement_of_int? (h : v.int?.isSome) : v.isElement = true := by
  cases v with
  | list place => cases h
  | _ => rfl

theorem isNumber_of_int? (h : v.int?.isSome) : v.isNumber = true := by
  obtain ⟨n, hn⟩ := Option.isSome_iff_exists.1 h
  rw [isNumber, fraction?_of_int? hn]
  rfl

/-- An integer is one number only. -/
theorem number?_eq_intCast_iff (h : v.int?.isSome) :
    v.number? = some (n : ℚ) ↔ v.int? = some n := by
  obtain ⟨m, hm⟩ := Option.isSome_iff_exists.1 h
  rw [number?_of_int? hm, hm, Option.some_inj, Option.some_inj, Int.cast_inj]

end Value

/-! ### Sets kept one by one -/

namespace Enumerated

variable {es : Enumerated}

/-- All elements are integers. Truth values count as such. -/
def Integral (es : List Element) : Prop :=
  ∀ e ∈ es, e.value.int?.isSome

/-- The set holds integers and nothing else, and they are in order. -/
def IsIntSet (es : Enumerated) : Prop :=
  es.Ordered ∧ Integral es

theorem mem_ints_iff (h : Integral es) : n ∈ ints es ↔ HasNumber es n := by
  simp only [ints, List.mem_filterMap, List.mem_map, exists_exists_and_eq_and, HasNumber]
  exact exists_congr fun e =>
    and_congr_right fun he => (Value.number?_eq_intCast_iff (h e he)).symm

/-- The integers of an ordered set ascend. -/
theorem Ordered.pairwise_ints (h : Ordered es) : (ints es).Pairwise (· < ·) := by
  rw [ints, List.pairwise_filterMap, List.pairwise_map]
  refine h.pairwise.imp fun {a b} hab m hm n hn => ?_
  obtain ⟨p, hp, hpn⟩ := hab n (Value.number?_of_int? hn)
  obtain rfl : (m : ℚ) = p := Option.some.inj ((Value.number?_of_int? hm).symm.trans hp)
  exact_mod_cast hpn

/-- Integers can be put in a row. -/
theorem Integral.listed? (h : Integral es) : listed? es = .ok (es.map Element.value) := by
  have hnumbers : (es.map Element.value).all Value.isNumber = true := by
    simpa only [List.all_map, List.all_eq_true, Function.comp_apply] using
      fun e he => Value.isNumber_of_int? (h e he)
  rw [Enumerated.listed?, if_pos]
  simp only [Value.areComparable, hnumbers, Bool.or_true, Bool.true_or]

variable {runsAt : Nat → Runs} {fs : Enumerated}

theorem Integral.ofList (h : Integral es) : Integral (ofList runsAt es) :=
  fun e he => h e (mem_of_mem_ofList he)

theorem Integral.apply (op : Operator) (hes : Integral es) (hfs : Integral fs) :
    Integral (apply runsAt op es fs) := by
  intro e he
  cases op with
  | union => exact (mem_of_mem_union he).elim (hes e) (hfs e)
  | inter => exact (mem_of_mem_inter he).elim (hes e) (hfs e)
  | diff => exact hes e (mem_of_mem_diff he)

theorem IsIntSet.apply (op : Operator) (hes : es.IsIntSet) (hfs : fs.IsIntSet) :
    IsIntSet (apply runsAt op es fs) :=
  ⟨hes.1.apply op hfs.1, hes.2.apply op hfs.2⟩

/-- **What an operator does to the numbers of two sets** does not depend on their other
elements. -/
theorem hasNumber_apply (op : Operator) (hes : es.Ordered) (hfs : fs.Ordered) {q : ℚ} :
    HasNumber (apply runsAt op es fs) q ↔ op.Selects (HasNumber es q) (HasNumber fs q) := by
  cases op with
  | union => exact hasNumber_union
  | inter => exact hasNumber_inter hes hfs
  | diff => exact hasNumber_diff hes.filed hfs

end Enumerated

theorem Enumerated.integral_map_element {vs : List Value} (h : ∀ v ∈ vs, v.int?.isSome) :
    Integral (vs.map σ.element) := by
  intro e he
  obtain ⟨v, hv, rfl⟩ := List.mem_map.1 he
  rw [Store.element, Element.value_ofValue]
  exact h v hv

/-- The set of some integers. -/
theorem Enumerated.isIntSet_ofList {vs : List Value} (h : ∀ v ∈ vs, v.int?.isSome) :
    IsIntSet (ofList σ.runsAt (vs.map σ.element)) :=
  ⟨Store.ordered_ofList_map_element _ vs, (integral_map_element h).ofList⟩

/-- A collection of integers as a set that keeps them one by one. -/
theorem Store.Lists.exists_ofItem? (h : σ.Lists v ns) :
    ∃ fs, Enumerated.ofItem? σ (.value v) = .ok fs ∧ fs.IsIntSet ∧
      ∀ n : Int, Enumerated.HasNumber fs n ↔ n ∈ ns := by
  obtain ⟨items, hitems, hints, rfl⟩ := h
  have hall : items.all Value.isElement = true :=
    List.all_eq_true.2 fun w hw => Value.isElement_of_int? (hints w hw)
  have hvalues : (items.map σ.element).map Element.value = items := by
    simp [Function.comp_def, Store.element]
  refine ⟨Enumerated.ofList σ.runsAt (items.map σ.element), ?_,
    Enumerated.isIntSet_ofList hints, fun n => ?_⟩
  · rw [Enumerated.ofItem?, Store.elements?, Store.pulled?_eq_ok_none_iff.2 hitems]
    simp only [Except.bind, hall, if_true, Option.elim_none, Except.map]
  · rw [Enumerated.hasNumber_ofList,
      ← Enumerated.mem_ints_iff (Enumerated.integral_map_element hints), Enumerated.ints, hvalues]

/-! ### Sets of either kind -/

namespace Contents

/-- The set holds integers and nothing else, and it has the form that its kind asks for. -/
def IsIntSet : Contents → Prop
  | .runs xs => xs.runs.Canonical
  | .enumerated es => es.IsIntSet

/-- An integer is in the set. -/
def Holds : Contents → Int → Prop
  | .runs xs, n => xs.runs.Holds n
  | .enumerated es, n => Enumerated.HasNumber es n

/-- The integers of the set as it lists them. -/
def ints : Contents → List Int
  | .runs xs => xs.runs.elements
  | .enumerated es => Enumerated.ints es

variable {c d : Contents}

theorem IsIntSet.mem_ints_iff (h : c.IsIntSet) : n ∈ c.ints ↔ c.Holds n := by
  cases c with
  | runs xs => exact Runs.mem_elements
  | enumerated es => exact Enumerated.mem_ints_iff h.2

theorem IsIntSet.pairwise_ints (h : c.IsIntSet) : c.ints.Pairwise (· < ·) := by
  cases c with
  | runs xs => exact Runs.pairwise_elements h
  | enumerated es => exact h.1.pairwise_ints

/-- **What a set of integers is combined with a collection to.** The result is a set of integers of
the same kind, and it depends on the integers that the collection lists. -/
theorem exists_combine (hσ : σ.Canonical) (op : Operator) (hc : c.IsIntSet) (h : σ.Lists v ns) :
    ∃ d, combine σ op c v = .ok d ∧ d.kind = c.kind ∧ d.IsIntSet ∧
      ∀ n, d.Holds n ↔ op.Selects (c.Holds n) (n ∈ ns) := by
  cases c with
  | runs xs =>
    obtain ⟨zs, hzs, hcanonical, hholds⟩ := exists_combine_runs hσ op hc h
    exact ⟨.runs zs, hzs, rfl, hcanonical, hholds⟩
  | enumerated es =>
    obtain ⟨fs, hfs, hset, hnumbers⟩ := h.exists_ofItem?
    refine ⟨.enumerated (Enumerated.apply σ.runsAt op es fs), ?_, rfl, hc.apply op hset,
      fun n => ?_⟩
    · rw [combine, Enumerated.combine_of_ofItem? hfs]
      rfl
    · exact (Enumerated.hasNumber_apply op hc.1 hset.1).trans
        (Operator.selects_congr Iff.rfl (hnumbers n))

end Contents

/-! ### Stored sets -/

namespace Store

variable {u : Value} {c : Contents}

theorem kind_of_contents? (h : σ.contents? u = some c) : c.kind = u.kind := by
  cases u with
  | runs place =>
    cases h
    rfl
  | enumerated place =>
    cases h
    rfl
  | _ => cases h

/-- **A set of integers lists the integers that it holds.** -/
theorem lists_of_contents? (h : σ.contents? u = some c) (hc : c.IsIntSet) : σ.Lists u c.ints := by
  cases u with
  | runs place =>
    cases h
    rw [Contents.ints, runs_spelledAt]
    exact lists_runs σ place
  | enumerated place =>
    cases h
    refine ⟨_, hc.2.listed?, fun w hw => ?_, rfl⟩
    obtain ⟨e, he, rfl⟩ := List.mem_map.1 hw
    exact hc.2 e he
  | _ => cases h

/-- **A set that lists integers is a set of integers,** and holds those that it lists. -/
theorem Lists.isIntSet (hcanonical : σ.Canonical) (hordered : σ.Ordered) (h : σ.Lists u ns)
    (hc : σ.contents? u = some c) : c.IsIntSet ∧ ∀ n, c.Holds n ↔ n ∈ ns := by
  obtain ⟨items, hitems, hints, rfl⟩ := h
  cases u with
  | runs place =>
    cases hc
    cases hitems
    refine ⟨hcanonical.spelledAt place, fun n => ?_⟩
    rw [filterMap_int?_map_int, Runs.mem_elements, ← runs_spelledAt]
    rfl
  | enumerated place =>
    cases hc
    obtain ⟨-, rfl⟩ := ite_eq_ok_iff.1 hitems
    have hintegral : Enumerated.Integral (σ.elementsAt place) :=
      fun e he => hints _ (List.mem_map_of_mem he)
    exact ⟨⟨hordered.elementsAt place, hintegral⟩,
      fun n => (Enumerated.mem_ints_iff hintegral).symm⟩
  | _ => cases hc

end Store

end SymbolSets
