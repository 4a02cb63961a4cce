import SymbolSets.Store.Implementation
import SymbolSets.Value.Operator

/-!
# Sets made from others

A new set is computed from what others hold and from values. The store is only read, so nothing that
is stored can change.

## Main definitions

* `Contents`: what a set of either kind holds, apart from where it is stored.
* `Product`, `Store.enter`: what a request brings about, and its place in the store.
* `Contents.combine`, `Contents.intSet`, `Contents.operate`: union, intersection and difference with
  any collection, and the same as an operator, which is choosier about its operand.
* `Contents.complement`: what a set leaves of a universe.
* `Derivation`, `Maker`: the requests for a new set, with and without a set to start from.
-/

namespace SymbolSets

/-- What a set holds, kept by runs or one by one. -/
inductive Contents
  | runs (xs : SpelledRuns)
  | enumerated (es : Enumerated)

namespace Contents

/-- Whether the set has no element. -/
def isEmpty : Contents → Bool
  | .runs xs => xs.runs.isEmpty
  | .enumerated es => es.isEmpty

/-- The kind of the set. -/
def kind : Contents → Kind
  | .runs _ => .runs
  | .enumerated _ => .enumerated

end Contents

/-- What a request brings about: a value that is at hand, or a list or a set that is new. -/
inductive Product
  | value (v : Value)
  | items (vs : List Value)
  | contents (c : Contents)

namespace Store

/-- What a value holds if it is a set. -/
def contents? (σ : Store) : Value → Option Contents
  | .runs place => some (.runs (σ.spelledAt place))
  | .enumerated place => some (.enumerated (σ.elementsAt place))
  | _ => none

/-- Stores what is new, as an object that is neither frozen nor marked. -/
def enter (σ : Store) : Product → Value × Store
  | .value v => (v, σ)
  | .items vs => σ.addList vs
  | .contents (.runs xs) => σ.addRuns xs
  | .contents (.enumerated es) => σ.addElements es

end Store

namespace Contents

variable (σ : Store)

/-- Combines a set with a collection. The result is kept as the set is. -/
def combine (operator : Operator) (c : Contents) (v : Value) : Except Fault Contents :=
  match c, operator with
  | .runs xs, .union => (σ.intervals? v).map fun added => .runs (xs.insertAll added)
  | .runs xs, .inter => (σ.runs? v).map fun ys => .runs (xs.inter ys)
  | .runs xs, .diff => (σ.runs? v).map fun ys => .runs (xs.diff ys)
  | .enumerated es, operator =>
    (Enumerated.implementation.combine σ operator es (.value v)).map .enumerated

/-- The sets that are kept in stores, with the values of `σ` as operands. -/
def intSet : IntSet Contents Value where
  kind := kind
  refusal? := Value.refusal?
  combine := combine σ
  noItems := .intervals []

/-- Combines a set with a collection by an operator, which takes neither texts nor bytes. -/
def operate (operator : Operator) (c : Contents) (v : Value) : Except Fault Contents :=
  (intSet σ).operate operator c v

theorem operate_of_taken {v : Value} (h : v.refusalText? = none) (operator : Operator)
    (c : Contents) : c.operate σ operator v = c.combine σ operator v :=
  IntSet.operate_of_taken (Value.refusal?_eq_none h)

/-- The universe of a complement: the set of all character codes, a range given by both bounds, or
the elements of a collection. -/
def universe? : List Value → Except Fault SpelledRuns
  | [] | [.nothing] | [.nothing, _] => .ok (σ.spelledAt Store.characterPlace)
  | [v] | [v, .nothing] =>
    match v.int? with
    | some _ => .error (.loneBound (v.refusalText?.getD []))
    | none => σ.runs? v
  | [v, w] =>
    match v.int? with
    | some _ => (Value.interval? v w).map fun x => .ofSpans [x]
    | none => σ.runs? v
  | _ => .error .operandCount

/-- The elements of a universe that a set does not hold. -/
def complement (c : Contents) (operands : List Value) : Except Fault Contents :=
  match c with
  | .runs xs => (universe? σ operands).map fun all => .runs (all.diff xs)
  | .enumerated es =>
    match operands with
    | [v] => (σ.elements? v).map fun fs =>
      .enumerated (Enumerated.ofList σ.runsAt (Enumerated.diff σ.runsAt fs es))
    | _ => .error .operandCount

end Contents

/-- The requests for a new set that start from a stored one. -/
inductive Derivation
  | union
  | inter
  | diff
  | complement
  | operator (operator : Operator)
deriving DecidableEq

namespace Derivation

/-- The new set that is derived from another. -/
def ofContents (d : Derivation) (σ : Store) (c : Contents) (operands : List Value) :
    Except Fault Contents :=
  match d, operands with
  | .union, [v] => c.combine σ .union v
  | .inter, [v] => c.combine σ .inter v
  | .diff, [v] => c.combine σ .diff v
  | .complement, operands => c.complement σ operands
  | .operator op, [v] => c.operate σ op v
  | _, _ => .error .operandCount

/-- What is derived from a value that is no set. Two intervals have a hull and a common part, and
operators are defined for numbers. -/
def ofValue (d : Derivation) (v : Value) (operands : List Value) : Except Fault Value :=
  match d, v, operands with
  | .union, .interval x, [.interval y] => .ok (.interval (x.hull y))
  | .inter, .interval x, [.interval y] => .ok (.interval (x.inter y))
  | .operator op, v, [w] => v.operate? op w
  | _, _, _ => .error .unsupported

/-- What is derived from the value that the request is sent to. -/
def derive (d : Derivation) (σ : Store) (v : Value) (operands : List Value) :
    Except Fault Product :=
  match σ.contents? v with
  | some c => (d.ofContents σ c operands).map .contents
  | none => (d.ofValue v operands).map .value

end Derivation

/-- The requests for a new set from values alone. -/
inductive Maker
  /-- The empty set, or a copy of a collection. -/
  | copy
  /-- The set of one integer or of a range. -/
  | range
  /-- The set of the integers of some intervals. -/
  | ofIntervals
  /-- The union of any number of collections, none of which need be a set. -/
  | unionAll
  /-- The set of a collection, kept one by one. -/
  | enumerate
  /-- Operands combined from left to right by one operator. The first must be a set. -/
  | fold (fold : Fold)
  /-- What the second set leaves of the first. -/
  | difference
deriving DecidableEq

namespace Maker

variable (σ : Store)

/-- What a set leaves of `xs`. It must be kept by runs if it holds anything. -/
def differenceFrom? (xs : SpelledRuns) (v : Value) : Except Fault Contents :=
  match σ.contents? v with
  | some (.runs ys) => .ok (.runs (xs.diff ys))
  | some (.enumerated []) => .ok (.runs xs)
  | _ => .error .unsupported

/-- What the second set leaves of the first. The second is looked at only if the first holds
anything. -/
def difference? (left right : Value) : Except Fault Contents :=
  match σ.contents? left with
  | some l =>
    if l.isEmpty then .ok (.runs .empty)
    else (σ.runs? left).bind fun xs => differenceFrom? σ xs right
  | none => .error .unsupported

/-- The first set combined with the other values from left to right. -/
def fold? (f : Fold) (first : Value) (rest : List Value) : Except Fault Contents :=
  match σ.contents? first with
  | some c => (Contents.intSet σ).fold f c rest
  | none => .error .unsupported

/-- The new set. -/
def make (m : Maker) (operands : List Value) : Except Fault Contents :=
  match m, operands with
  | .copy, [] => .ok (.runs .empty)
  | .copy, [v] => (σ.runs? v).map .runs
  | .range, [v] | .range, [v, .nothing] =>
    (Value.interval? v v).map fun x => .runs (.ofSpans [x])
  | .range, [lo, hi] => (Value.interval? lo hi).map fun x => .runs (.ofSpans [x])
  | .ofIntervals, vs => (Value.allIntervals? vs).map fun xs => .runs (.ofSpans xs)
  | .unionAll, vs => vs.foldlM (Contents.combine σ .union) (.runs .empty)
  | .enumerate, [] => .ok (.enumerated [])
  | .enumerate, [v] =>
    (σ.elements? v).map fun es => .enumerated (Enumerated.ofList σ.runsAt es)
  | .fold f, [] => .error (.noOperands f)
  | .fold f, first :: rest => fold? σ f first rest
  | .difference, [left, right] => difference? σ left right
  | _, _ => .error .operandCount

end Maker

end SymbolSets
