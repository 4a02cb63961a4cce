import SymbolSets.Fault

/-!
# What sets of all implementations have in common

Sets can be implemented in several ways. An implementation supplies the methods that combine a set
with a collection. The operators between sets, which are choosier about the collection than the
methods, and the folds of any number of operands are the same for all implementations and go by
their methods.

## Main definitions

* `IntSet`: what an implementation supplies.
* `IntSet.operate`: a method as an operator.
* `IntSet.fold`: operands combined from left to right.
-/

namespace SymbolSets

/-- An implementation of sets, with its sets in `α` and their operands in `β`. -/
structure IntSet (α β : Type) where
  /-- The kind of a set in messages. -/
  kind : α → Kind
  /-- The kind of an operand that operators do not take, and what it is shown as. -/
  refusal? : β → Option (Kind × Text)
  /-- A new set of a set and an operand. -/
  combine : Operator → α → β → Except Fault α
  /-- The operand without items. -/
  noItems : β

namespace IntSet

variable {α β : Type} (I : IntSet α β)

/-- Combines a set with an operand, if operators take it. -/
def operate (operator : Operator) (a : α) (b : β) : Except Fault α :=
  match I.refusal? b with
  | some (kind, shown) => .error (.operandRefused operator (I.kind a) kind shown)
  | none => I.combine operator a b

variable {I} {operator : Operator} {a : α} {b : β}

theorem operate_of_taken (h : I.refusal? b = none) :
    I.operate operator a b = I.combine operator a b := by
  rw [operate, h]

theorem operate_of_refused {kind : Kind} {shown : Text} (h : I.refusal? b = some (kind, shown)) :
    I.operate operator a b = .error (.operandRefused operator (I.kind a) kind shown) := by
  rw [operate, h]

variable (I)

/-- A copy of the first set combined with the other operands from left to right. -/
def fold (f : Fold) (first : α) (rest : List β) : Except Fault α :=
  (I.combine .union first I.noItems).bind (rest.foldlM (I.operate f.operator))

end IntSet

end SymbolSets
