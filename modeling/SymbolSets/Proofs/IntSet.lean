import SymbolSets.IntSet
import SymbolSets.Proofs.Session.Algebra

/-!
# Folds by the methods of an implementation

A fold copies its first operand and combines what it has with the next operand until there is none
left. It goes by the methods of the implementation that the first operand is of. If these do what
they are for, the fold comes to the union or the intersection of all its operands, and so does a
chain of operators that starts from the first operand itself.

## Main definitions

* `Fold.Collects`: the integers that a fold comes to.
* `IntSet.Meaning`: which sets and operands there are, and what is in them.
* `IntSet.Makes`: a result that is a set of given integers.
* `IntSet.Lawful`: the methods do what they are for.

## Main results

* `IntSet.Lawful.makes_foldlM`: what is kept while operands are combined from left to right.
* `IntSet.Lawful.makes_fold`, `IntSet.Lawful.makes_chain`: what a fold and a chain come to.
* `IntSet.Lawful.fold_of_refused`: a fold that comes to an operand that operators do not take.
-/

namespace SymbolSets

variable {α β : Type} {n : Int}

/-! ### What is collected -/

/-- The integers that a fold of operands comes to, given what is in the operands. -/
def Fold.Collects (f : Fold) (Has : β → Int → Prop) (bs : List β) (n : Int) : Prop :=
  match f with
  | .union => ∃ b ∈ bs, Has b n
  | .inter => ∀ b ∈ bs, Has b n

namespace Fold

variable {f : Fold} {Has Has' : β → Int → Prop} {b : β} {bs cs : List β} {p q r : Prop}

theorem selects_collects_nil : f.operator.Selects p (f.Collects Has [] n) ↔ p := by
  cases f with
  | union => simp [operator, Operator.Selects, Collects]
  | inter => simp [operator, Operator.Selects, Collects]

theorem collects_cons :
    f.Collects Has (b :: bs) n ↔ f.operator.Selects (Has b n) (f.Collects Has bs n) := by
  cases f with
  | union => simp [operator, Operator.Selects, Collects]
  | inter => simp [operator, Operator.Selects, Collects]

theorem selects_assoc : f.operator.Selects (f.operator.Selects p q) r ↔
    f.operator.Selects p (f.operator.Selects q r) := by
  cases f with
  | union => exact or_assoc
  | inter => exact and_assoc

/-- **The order of operands and their repetition do not matter.** -/
theorem collects_congr (h : ∀ b, b ∈ bs ↔ b ∈ cs) :
    f.Collects Has bs n ↔ f.Collects Has cs n := by
  cases f with
  | union => simp only [Collects, h]
  | inter => simp only [Collects, h]

theorem collects_congr_has (h : ∀ b ∈ bs, Has b n ↔ Has' b n) :
    f.Collects Has bs n ↔ f.Collects Has' bs n := by
  cases f with
  | union => exact exists_congr fun b => and_congr_right fun hb => h b hb
  | inter => exact forall₂_congr h

end Fold

/-! ### Methods -/

namespace IntSet

/-- What the sets of an implementation and the operands stand for. -/
structure Meaning (α β : Type) where
  /-- The set is one of integers, and in good order. -/
  IsSet : α → Prop
  /-- An integer is in a set. -/
  Holds : α → Int → Prop
  /-- The operand is a collection of integers that operators take. -/
  IsOperand : β → Prop
  /-- An integer is in an operand. -/
  Has : β → Int → Prop

/-- The result is a set of a given kind that holds given integers. -/
def Makes (I : IntSet α β) (M : Meaning α β) (kind : Kind) (R : Int → Prop)
    (result : Except Fault α) : Prop :=
  ∃ a, result = .ok a ∧ I.kind a = kind ∧ M.IsSet a ∧ ∀ n, M.Holds a n ↔ R n

/-- The methods of an implementation do what they are for: a method that is called on a set with an
operand makes a set of the same kind, with the integers that the operator selects. -/
structure Lawful (I : IntSet α β) (M : Meaning α β) : Prop where
  taken : ∀ {b}, M.IsOperand b → I.refusal? b = none
  combine : ∀ (f : Fold) {a b}, M.IsSet a → M.IsOperand b →
    I.Makes M (I.kind a) (fun n => f.operator.Selects (M.Holds a n) (M.Has b n))
      (I.combine f.operator a b)
  isOperand_noItems : M.IsOperand I.noItems
  not_has_noItems : ∀ {n}, ¬ M.Has I.noItems n

namespace Lawful

variable {I : IntSet α β} {M : Meaning α β} {f : Fold} {a first : α} {bs rest : List β}

/-- An operator does what its method is for. -/
theorem makes_operate (hI : I.Lawful M) (f : Fold) (ha : M.IsSet a) {b : β} (hb : M.IsOperand b) :
    I.Makes M (I.kind a) (fun n => f.operator.Selects (M.Holds a n) (M.Has b n))
      (I.operate f.operator a b) := by
  rw [operate_of_taken (hI.taken hb)]
  exact hI.combine f ha hb

/-- **What is kept while operands are combined from left to right.** The induction is on the
operands, whatever the set is that is combined with the first of them. -/
theorem makes_foldlM (hI : I.Lawful M) {step : α → β → Except Fault α}
    (hstep : ∀ a b, M.IsOperand b → step a b = I.combine f.operator a b) (ha : M.IsSet a)
    (hbs : ∀ b ∈ bs, M.IsOperand b) :
    I.Makes M (I.kind a) (fun n => f.operator.Selects (M.Holds a n) (f.Collects M.Has bs n))
      (bs.foldlM step a) := by
  induction bs generalizing a with
  | nil => exact ⟨a, rfl, rfl, ha, fun n => Fold.selects_collects_nil.symm⟩
  | cons b bs ih =>
    have hb : M.IsOperand b := hbs b List.mem_cons_self
    obtain ⟨c, hc, hcKind, hcSet, hcHolds⟩ := hI.combine f ha hb
    obtain ⟨d, hd, hdKind, hdSet, hdHolds⟩ := ih hcSet fun b' hb' => hbs b' (.tail b hb')
    refine ⟨d, ?_, hdKind.trans hcKind, hdSet, fun n => ?_⟩
    · rw [List.foldlM_cons, hstep a b hb, hc]
      exact hd
    · refine (hdHolds n).trans ((Operator.selects_congr (hcHolds n) Iff.rfl).trans ?_)
      rw [Fold.selects_assoc, ← Fold.collects_cons]

/-- **A chain of operators** comes to what is in the first set and in the operands. -/
theorem makes_chain (hI : I.Lawful M) (f : Fold) (hfirst : M.IsSet first)
    (hrest : ∀ b ∈ rest, M.IsOperand b) :
    I.Makes M (I.kind first)
      (fun n => f.operator.Selects (M.Holds first n) (f.Collects M.Has rest n))
      (rest.foldlM (I.operate f.operator) first) :=
  hI.makes_foldlM (fun _ _ hb => operate_of_taken (hI.taken hb)) hfirst hrest

/-- The copy that a fold starts from holds what the first operand holds. -/
theorem makes_copy (hI : I.Lawful M) (hfirst : M.IsSet first) :
    I.Makes M (I.kind first) (M.Holds first) (I.combine .union first I.noItems) := by
  obtain ⟨a, ha, hkind, hset, hholds⟩ := hI.combine .union hfirst hI.isOperand_noItems
  exact ⟨a, ha, hkind, hset, fun n => (hholds n).trans (or_iff_left hI.not_has_noItems)⟩

/-- **A fold** comes to what a chain of operators comes to. -/
theorem makes_fold (hI : I.Lawful M) (f : Fold) (hfirst : M.IsSet first)
    (hrest : ∀ b ∈ rest, M.IsOperand b) :
    I.Makes M (I.kind first)
      (fun n => f.operator.Selects (M.Holds first n) (f.Collects M.Has rest n))
      (I.fold f first rest) := by
  obtain ⟨a, ha, haKind, haSet, haHolds⟩ := hI.makes_copy hfirst
  obtain ⟨c, hc, hcKind, hcSet, hcHolds⟩ := hI.makes_chain f haSet hrest
  refine ⟨c, ?_, hcKind.trans haKind, hcSet, fun n => ?_⟩
  · rw [fold, ha]
    exact hc
  · exact (hcHolds n).trans (Operator.selects_congr (haHolds n) Iff.rfl)

/-- **A fold stops at an operand that operators do not take,** if what comes before it is all
right. -/
theorem fold_of_refused (hI : I.Lawful M) (hfirst : M.IsSet first) {before after : List β} {b : β}
    {kind : Kind} {shown : Text} (hbefore : ∀ b ∈ before, M.IsOperand b)
    (hb : I.refusal? b = some (kind, shown)) :
    I.fold f first (before ++ b :: after) =
      .error (.operandRefused f.operator (I.kind first) kind shown) := by
  obtain ⟨a, ha, haKind, haSet, -⟩ := hI.makes_copy hfirst
  obtain ⟨c, hc, hcKind, -⟩ := hI.makes_chain f haSet hbefore
  rw [fold, ha]
  change (before ++ b :: after).foldlM (I.operate f.operator) a = _
  rw [List.foldlM_append, hc]
  change (b :: after).foldlM (I.operate f.operator) c = _
  rw [List.foldlM_cons, operate_of_refused hb, hcKind, haKind]
  rfl

end Lawful

end IntSet

end SymbolSets
