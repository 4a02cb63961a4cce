import SymbolSets.IntSet
import SymbolSets.Store.Reading

/-!
# Other implementations of sets

Next to the sets that are kept by runs there may be sets of other implementations. Of such an
implementation nothing is known but its methods. It takes part in the operators and folds of sets
by these methods, and everywhere else as a collection of the integers that it lists. Its methods are
functions of the set that they are called on, of the operand and of the store, so no call changes
an operand.

One implementation is at hand, which keeps the elements of a set one by one. It is stored beside
the sets that are kept by runs, so that these meet sets of another implementation.

## Main definitions

* `Implementation`: the methods of an implementation.
* `Implementation.Item`: an operand, which is a value or another set of the implementation.
* `Implementation.intSet`: the implementation with the operators and folds of all sets.
* `Enumerated.implementation`: the sets that keep their elements one by one.
-/

namespace SymbolSets

/-- The kind and the text of a value that operators between sets do not take. -/
def Value.refusal? (v : Value) : Option (Kind × Text) :=
  v.refusalText?.map fun shown => (v.kind, shown)

theorem Value.refusal?_eq_none {v : Value} (h : v.refusalText? = none) : v.refusal? = none := by
  rw [refusal?, h, Option.map_none]

theorem Value.refusal?_eq_some {v : Value} {shown : Text} (h : v.refusalText? = some shown) :
    v.refusal? = some (v.kind, shown) := by
  rw [refusal?, h, Option.map_some]

/-- An operand of a set of an implementation whose sets are in `α`. -/
inductive Implementation.Item (α : Type)
  | value (v : Value)
  | own (a : α)

/-- An operand that operators do not take is a value. Sets are always taken. -/
def Implementation.Item.refusal? {α : Type} : Item α → Option (Kind × Text)
  | .value v => v.refusal?
  | .own _ => none

/-- An implementation of sets by its methods, with its sets in `α`. -/
structure Implementation (α : Type) where
  kind : α → Kind
  /-- The integers of a set as the set lists them. -/
  toList : α → List Int
  combine : Store → Operator → α → Implementation.Item α → Except Fault α

/-- The operators and folds of an implementation, with operands in the store `σ`. -/
def Implementation.intSet {α : Type} (I : Implementation α) (σ : Store) :
    IntSet α (Implementation.Item α) where
  kind := I.kind
  refusal? := Implementation.Item.refusal?
  combine := I.combine σ
  noItems := .value (.intervals [])

namespace Enumerated

/-- The elements of an operand, as a set. -/
def ofItem? (σ : Store) : Implementation.Item Enumerated → Except Fault Enumerated
  | .value v => (σ.elements? v).map (ofList σ.runsAt)
  | .own es => .ok es

/-- The sets that keep their elements one by one. -/
def implementation : Implementation Enumerated where
  kind _ := .enumerated
  toList := ints
  combine σ operator es x := (ofItem? σ x).map (apply σ.runsAt operator es)

theorem combine_of_ofItem? {σ : Store} {x : Implementation.Item Enumerated} {fs : Enumerated}
    (h : ofItem? σ x = .ok fs) (operator : Operator) (es : Enumerated) :
    implementation.combine σ operator es x = .ok (apply σ.runsAt operator es fs) := by
  change (ofItem? σ x).map (apply σ.runsAt operator es) = _
  rw [h]
  rfl

end Enumerated

end SymbolSets
