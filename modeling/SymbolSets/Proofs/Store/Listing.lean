import SymbolSets.Proofs.Session.Canonical
import SymbolSets.Proofs.Session.Reference
import SymbolSets.Proofs.Store.Collection

/-!
# Collections of integers

A collection lists integers if each of its items is one, whatever kind of collection it is. A set
kept by runs lists its elements in ascending order; a list may name an integer many times, and by a
truth value. To take a collection as a set kept by runs it is enough to know which integers it
lists.

## Main definitions

* `Store.Lists`: the integers that a collection lists.
* `Operand.Lists`: the same for what an operand stands for.

## Main results

* `Store.Extends.items?_eq`: new objects do not change the items of a known collection.
* `Store.Lists.exists_intervals?`, `Store.Lists.exists_runs?`: collections taken as intervals and as
  sets kept by runs.
-/

namespace SymbolSets

namespace Store

variable {σ τ : Store} {v : Value} {ns : List Int}

/-- The value is a collection of integers, and these are `ns` in the order in which they come. -/
def Lists (σ : Store) (v : Value) (ns : List Int) : Prop :=
  ∃ items, σ.items? v = .ok items ∧ (∀ w ∈ items, w.int?.isSome) ∧ items.filterMap Value.int? = ns

/-! ### Collections in larger stores -/

theorem Extends.elementsAt_eq (h : σ.Extends τ) {i : Nat} (hi : i < σ.elements.size) :
    τ.elementsAt i = σ.elementsAt i := by
  have ho := Array.getElem?_eq_getElem hi
  rw [elementsAt, elementsAt, ho, h.elements ho]

theorem Extends.listAt_eq (h : σ.Extends τ) {i : Nat} (hi : i < σ.lists.size) :
    τ.listAt i = σ.listAt i := by
  have hvs := Array.getElem?_eq_getElem hi
  rw [listAt, listAt, hvs, h.lists hvs]

/-- **New objects do not change the items of a known collection.** -/
theorem Extends.items?_eq (h : σ.Extends τ) (hv : σ.Knows v) : τ.items? v = σ.items? v := by
  cases v with
  | runs place => rw [items?, items?, h.runsAt_eq hv]
  | enumerated place => rw [items?, items?, h.elementsAt_eq hv]
  | list place => rw [items?, items?, h.listAt_eq hv]
  | _ => rfl

theorem Lists.extends (hns : σ.Lists v ns) (h : σ.Extends τ) (hv : σ.Knows v) : τ.Lists v ns := by
  rwa [Lists, h.items?_eq hv]

/-! ### Collections as sets kept by runs -/

theorem lists_runs (σ : Store) (place : Nat) : σ.Lists (.runs place) (σ.runsAt place).elements :=
  ⟨_, rfl, by simp, filterMap_int?_map_int _⟩

/-- What is listed is no integer itself. -/
theorem Lists.int?_eq_none (h : σ.Lists v ns) : v.int? = none := by
  obtain ⟨items, hitems, -⟩ := h
  cases v with
  | bool b => cases hitems
  | int n => cases hitems
  | _ => rfl

/-- **The intervals of a collection hold the integers that it lists.** -/
theorem Lists.exists_intervals? (h : σ.Lists v ns) :
    ∃ xs, σ.intervals? v = .ok xs ∧ ∀ n, Runs.Holds (xs.map Span.interval) n ↔ n ∈ ns := by
  obtain ⟨items, hitems, hints, rfl⟩ := h
  obtain ⟨added, xs, hadded, hxs, hholds⟩ := exists_additions?_of_items? hitems hints
  exact ⟨xs, by rw [intervals?, hadded]; exact hxs, hholds⟩

/-- **A collection is taken as the set of the integers that it lists.** -/
theorem Lists.exists_runs? (hσ : σ.Canonical) (h : σ.Lists v ns) :
    ∃ xs, σ.runs? v = .ok xs ∧ xs.runs.Canonical ∧ ∀ n, xs.runs.Holds n ↔ n ∈ ns := by
  obtain ⟨xs, hxs, hholds⟩ := h.exists_intervals?
  have hmap : (σ.intervals? v).map SpelledRuns.ofSpans = .ok (.ofSpans xs) := by
    rw [hxs]
    rfl
  have hitems : ∀ n, (SpelledRuns.ofSpans xs).runs.Holds n ↔ n ∈ ns := fun n => by
    rw [SpelledRuns.holds_ofSpans]
    exact hholds n
  cases v with
  | runs place =>
    obtain rfl : xs = (σ.spelledAt place).spans :=
      Except.ok.inj (hxs.symm.trans (Additions.intervals?_items_ok _))
    rw [SpelledRuns.map_interval_spans] at hholds
    exact ⟨_, rfl, hσ.spelledAt place, hholds⟩
  | _ => exact ⟨_, hmap, SpelledRuns.canonical_ofSpans xs, hitems⟩

end Store

/-- The operand stands for a collection of the integers `ns`. -/
def Operand.Lists (o : Operand) (σ : Store) (ns : List Int) : Prop :=
  ∃ v τ, o.value? σ = .ok (v, τ) ∧ τ.Lists v ns

/-- A single operand is read as it is. -/
theorem Operand.values?_singleton {o : Operand} {σ τ : Store} {v : Value}
    (h : o.value? σ = .ok (v, τ)) : Operand.values? [o] σ = .ok ([v], τ) := by
  rw [values?, h]
  rfl

end SymbolSets
