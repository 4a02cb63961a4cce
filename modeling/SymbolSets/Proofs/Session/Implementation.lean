import SymbolSets.Proofs.IntSet
import SymbolSets.Proofs.Session.Integers

/-!
# Implementations that fold

Operators take collections of integers that are neither texts nor bytes. The stored sets of integers
do with them what operators and folds need. Any other implementation is known by its methods alone:
it is asked to list its sets in ascending order, and to make a new set of the same kind, of the
right integers, of a set and an operand. Folds need nothing else of it.

## Main definitions

* `Store.IsOperand`, `Store.Has`: the collections of integers that operators take, and what is in
  them.
* `Contents.meaning`: stored sets of integers, with stored collections as operands.
* `Implementation.IsOperand`, `Implementation.Has`: the operands of another implementation.
* `Implementation.Lawful`: what folds need of an implementation.

## Main results

* `Contents.lawful`: stored sets of integers.
* `Implementation.Lawful.intSet`: the sets of an implementation.
* `Enumerated.lawful`: the sets that keep their elements one by one are such an implementation.
-/

namespace SymbolSets

variable {σ τ : Store} {u v : Value} {n : Int}

/-! ### Operands -/

namespace Store

/-- The value is a collection of integers, and neither a text nor bytes. -/
def IsOperand (σ : Store) (v : Value) : Prop :=
  (∃ ns, σ.Lists v ns) ∧ v.kind ≠ .text ∧ v.kind ≠ .bytes

/-- The integer `n` is in the collection. -/
def Has (σ : Store) (v : Value) (n : Int) : Prop :=
  ∃ ns, σ.Lists v ns ∧ n ∈ ns

theorem Lists.has_iff {ns : List Int} (h : σ.Lists v ns) : σ.Has v n ↔ n ∈ ns := by
  refine ⟨fun ⟨ms, hms, hn⟩ => ?_, fun hn => ⟨ns, h, hn⟩⟩
  obtain ⟨items, hitems, -, rfl⟩ := h
  obtain ⟨items', hitems', -, rfl⟩ := hms
  obtain rfl : items' = items := Except.ok.inj (hitems'.symm.trans hitems)
  exact hn

theorem isOperand_of_items? {items : List Value} (h : σ.items? v = .ok items)
    (hints : ∀ w ∈ items, w.int?.isSome) (hkind : v.kind ≠ .text ∧ v.kind ≠ .bytes) :
    σ.IsOperand v :=
  ⟨⟨_, items, h, hints, rfl⟩, hkind⟩

/-- New objects do not change what is in a known collection. -/
theorem Extends.isOperand (h : σ.Extends τ) (hv : σ.Knows v) (hoperand : σ.IsOperand v) :
    τ.IsOperand v := by
  obtain ⟨⟨ns, hns⟩, hkind⟩ := hoperand
  exact ⟨⟨ns, hns.extends h hv⟩, hkind⟩

theorem Extends.has_iff (h : σ.Extends τ) (hv : σ.Knows v) : τ.Has v n ↔ σ.Has v n := by
  simp only [Has, Lists, h.items?_eq hv]

theorem IsOperand.refusal?_eq_none (h : σ.IsOperand v) : v.refusal? = none := by
  obtain ⟨⟨ns, hns⟩, htext, hbytes⟩ := h
  exact Value.refusal?_eq_none (hns.refusalText?_eq_none htext hbytes)

theorem lists_noItems (σ : Store) : σ.Lists (.intervals []) [] :=
  ⟨[], rfl, by simp, rfl⟩

theorem isOperand_noItems (σ : Store) : σ.IsOperand (.intervals []) :=
  ⟨⟨[], σ.lists_noItems⟩, by decide⟩

theorem not_has_noItems : ¬ σ.Has (.intervals []) n := by
  rw [σ.lists_noItems.has_iff]
  exact List.not_mem_nil

/-- What operators refuse is told by the kind of the value or by its items. -/
theorem exists_refusalText? (h : v.kind = .text ∨ v.kind = .bytes ∨
    σ.items? v = .error .notIterable) : ∃ shown, v.refusalText? = some shown := by
  cases v with
  | progression | intervals | runs | list | failing => simp [Value.kind, items?] at h
  | enumerated place =>
    simp only [Value.kind, reduceCtorEq, false_or, items?, Enumerated.listed?] at h
    split_ifs at h
    cases h
  | _ => exact ⟨_, rfl⟩

end Store

/-! ### Stored sets -/

namespace Contents

/-- Stored sets of integers, with the collections of a store as operands. -/
def meaning (σ : Store) : IntSet.Meaning Contents Value where
  IsSet := IsIntSet
  Holds := Holds
  IsOperand := σ.IsOperand
  Has := σ.Has

/-- **Stored sets of integers** can be folded. -/
theorem lawful (hσ : σ.Canonical) : (intSet σ).Lawful (meaning σ) where
  taken h := h.refusal?_eq_none
  combine f c v hc hv := by
    obtain ⟨⟨ns, hns⟩, -⟩ := hv
    obtain ⟨d, hd, hkind, hset, hholds⟩ := exists_combine hσ f.operator hc hns
    exact ⟨d, hd, hkind, hset,
      fun n => (hholds n).trans (Operator.selects_congr Iff.rfl hns.has_iff.symm)⟩
  isOperand_noItems := σ.isOperand_noItems
  not_has_noItems := Store.not_has_noItems

end Contents

/-! ### Other implementations -/

namespace Implementation

variable {α : Type} (I : Implementation α) (σ : Store) (IsSet : α → Prop)

/-- An operand is a collection of integers that operators take, or a set of the implementation. -/
def IsOperand : Item α → Prop
  | .value v => σ.IsOperand v
  | .own a => IsSet a

/-- The integer `n` is in the operand. -/
def Has : Item α → Int → Prop
  | .value v, n => σ.Has v n
  | .own a, n => n ∈ I.toList a

/-- The sets of an implementation for which `IsSet` holds, by what they list. -/
def meaning : IntSet.Meaning α (Item α) where
  IsSet := IsSet
  Holds a n := n ∈ I.toList a
  IsOperand := IsOperand σ IsSet
  Has := I.Has σ

/-- What folds need of an implementation, for the sets for which `IsSet` holds: a set lists its
integers in ascending order, and the union and the intersection of a set and an operand are new sets
of the same kind. -/
structure Lawful : Prop where
  ascending : ∀ {a}, IsSet a → (I.toList a).Pairwise (· < ·)
  union : ∀ {a x}, IsSet a → IsOperand σ IsSet x →
    ∃ b, I.combine σ .union a x = .ok b ∧ I.kind b = I.kind a ∧ IsSet b ∧
      ∀ n, n ∈ I.toList b ↔ n ∈ I.toList a ∨ I.Has σ x n
  inter : ∀ {a x}, IsSet a → IsOperand σ IsSet x →
    ∃ b, I.combine σ .inter a x = .ok b ∧ I.kind b = I.kind a ∧ IsSet b ∧
      ∀ n, n ∈ I.toList b ↔ n ∈ I.toList a ∧ I.Has σ x n

variable {I σ IsSet}

/-- **The sets of an implementation** that folds can use. -/
theorem Lawful.intSet (h : I.Lawful σ IsSet) : (I.intSet σ).Lawful (I.meaning σ IsSet) where
  taken {x} hx := by
    cases x with
    | value v => exact Store.IsOperand.refusal?_eq_none hx
    | own a => rfl
  combine f a x ha hx := by
    cases f with
    | union => exact h.union ha hx
    | inter => exact h.inter ha hx
  isOperand_noItems := σ.isOperand_noItems
  not_has_noItems := Store.not_has_noItems

end Implementation

namespace Enumerated

/-- The sets that keep their elements one by one do what any operator stands for. -/
theorem exists_combine (op : Operator) {es : Enumerated} {x : Implementation.Item Enumerated}
    (hes : es.IsIntSet) (hx : Implementation.IsOperand σ IsIntSet x) :
    ∃ fs, implementation.combine σ op es x = .ok fs ∧
      implementation.kind fs = implementation.kind es ∧ fs.IsIntSet ∧
      ∀ n, n ∈ ints fs ↔ op.Selects (n ∈ ints es) (implementation.Has σ x n) := by
  obtain ⟨gs, hgs, hset, hhas⟩ : ∃ gs, ofItem? σ x = .ok gs ∧ gs.IsIntSet ∧
      ∀ n : Int, HasNumber gs n ↔ implementation.Has σ x n := by
    cases x with
    | value v =>
      obtain ⟨⟨ns, hns⟩, -⟩ := hx
      obtain ⟨gs, hgs, hset, hnumbers⟩ := hns.exists_ofItem?
      exact ⟨gs, hgs, hset, fun n => (hnumbers n).trans hns.has_iff.symm⟩
    | own gs => exact ⟨gs, rfl, hx, fun n => (mem_ints_iff hx.2).symm⟩
  refine ⟨_, combine_of_ofItem? hgs op es, rfl, hes.apply op hset, fun n => ?_⟩
  rw [mem_ints_iff (hes.apply op hset).2, hasNumber_apply op hes.1 hset.1]
  exact Operator.selects_congr (mem_ints_iff hes.2).symm (hhas n)

/-- **The sets that keep their elements one by one** can be folded as another implementation. -/
theorem lawful (σ : Store) : implementation.Lawful σ IsIntSet where
  ascending h := h.1.pairwise_ints
  union := exists_combine .union
  inter := exists_combine .inter

end Enumerated

end SymbolSets
