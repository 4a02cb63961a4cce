import SymbolSets.Capacity
import SymbolSets.Store.Basic

/-!
# Reading values in a store

What a value is worth as a condition, whether two values are equal, and which items it has are
questions about the store as it is at the moment, for lists and sets change.

A set that is kept by runs takes whole runs of another such set and single integers of everything
else; it stops at the first item that is not an integer. A set that keeps its elements one by one
takes any item that can be an element.

## Main definitions

* `Store.isTrue`, `Store.isFrozen`: values as conditions, and whether changes to a set are rejected.
* `Store.areEqual`: equality.
* `Store.items?`, `Store.leading?`: the items of a collection, and the first few of them.
* `Store.pulled?`: the items as they come, and the fault in which the collection breaks off.
* `Store.count?`: the number of items.
* `Store.listed?`: the items of a collection as a list of their own.
* `Additions`, `Additions.next?`, `Store.additions?`: what a collection adds to a set, in turn.
* `Store.intervals?`, `Store.runs?`: a whole collection as intervals, and as a set kept by runs.
* `Store.elements?`: a whole collection as elements.
-/

namespace SymbolSets

/-- What a collection adds to a set that is kept by runs: its items as intervals, some of which may
be faulty, or the integers of a progression. -/
inductive Additions
  | items (xs : List (Except Fault Span))
  | progression (p : Progression)

namespace Additions

/-- How many intervals are added if nothing stops it. -/
def count : Additions → Nat
  | .items xs => xs.length
  | .progression p => p.count

/-- The first interval that is added, or what is wrong with the first item, and what follows. -/
def next? : Additions → Option (Except Fault Span × Additions)
  | .items [] => none
  | .items (x :: xs) => some (x, .items xs)
  | .progression p =>
    if p.count = 0 then none else some (.ok (Span.single p.start), .progression p.rest)

/-- All intervals, if there is nothing wrong with any item. -/
def intervals? : Additions → Except Fault (List Span)
  | .items xs => xs.mapM id
  | .progression p => .ok (p.elements.map Span.single)

end Additions

namespace Value

/-- Bytes as integers. -/
def byteItems (bs : List UInt8) : List Value :=
  bs.map fun b => .int b.toNat

/-- The code points of a text, each as a text. -/
def textItems (t : Text) : List Value :=
  t.map fun c => .text [c]

end Value

namespace Store

variable (σ : Store)

/-! ## Conditions -/

/-- Whether a value counts as true in a condition. Nothing, zero and what is empty do not. -/
def isTrue : Value → Bool
  | .nothing => false
  | .bool b => b
  | .int n => n != 0
  | .double x => !x.isZero
  | .text t => !t.isEmpty
  | .bytes bs => !bs.isEmpty
  | .progression p => p.count != 0
  | .interval _ => true
  | .intervals xs => !xs.isEmpty
  | .runs place => !(σ.runsAt place).isEmpty
  | .enumerated place => !(σ.elementsAt place).isEmpty
  | .list place => !(σ.listAt place).isEmpty
  | .failing _ | .vocabulary _ => true

/-- Whether changes to the set `o` are rejected, which takes the place of the one stored at `place`.
A set that is its own mark is frozen while it has an element. -/
def isFrozen (place : Nat) (o : StoredRuns) : Bool :=
  if o.mark = .runs place then !o.runs.isEmpty else σ.isTrue o.mark

/-! ## Equality -/

/-- Whether two rows have equal items in the same places. -/
def areEqualRows (areEqual : Value → Value → Bool) : List Value → List Value → Bool
  | [], [] => true
  | v :: vs, w :: ws => areEqual v w && areEqualRows areEqual vs ws
  | _, _ => false

/-- Equality of values in which lists lie inside each other no deeper than `depth`. Sets that are
kept by runs are equal if their runs are, lists if their items are, and other objects only to
themselves. -/
def areEqualWithin : (depth : Nat) → Value → Value → Bool
  | depth + 1, .list i, .list j =>
    i == j || areEqualRows (areEqualWithin depth) (σ.listAt i) (σ.listAt j)
  | 0, .list i, .list j => i == j
  | _, .runs i, .runs j => i == j || σ.runsAt i == σ.runsAt j
  | _, v, w => v.order w == .eq

/-- Whether two values are equal. A list holds only lists that were stored before it, so the number
of lists bounds the depth. -/
def areEqual (v w : Value) : Bool :=
  σ.areEqualWithin σ.lists.size v w

/-- Whether a value is equal to one of a row. -/
def isAmong (v : Value) (vs : List Value) : Bool :=
  vs.any (σ.areEqual v)

/-! ## Items -/

/-- The items of a collection, in its own order. -/
def items? : Value → Except Fault (List Value)
  | .text t => .ok (Value.textItems t)
  | .bytes bs => .ok (Value.byteItems bs)
  | .progression p => .ok (p.elements.map .int)
  | .intervals xs => .ok (xs.map .interval)
  | .runs place => .ok ((σ.runsAt place).elements.map .int)
  | .enumerated place => Enumerated.listed? (σ.elementsAt place)
  | .list place => .ok (σ.listAt place)
  | .failing _ => .error .interrupted
  | .nothing | .bool _ | .int _ | .double _ | .interval _ | .vocabulary _ => .error .notIterable

/-- The items of a collection as they come one by one, and the fault in which it breaks off if it
does. -/
def pulled? : Value → Except Fault (List Value × Option Fault)
  | .failing place => .ok (σ.listAt place, some .interrupted)
  | v => (σ.items? v).map fun vs => (vs, none)

/-- The first `n` items of a collection. No more are listed than are needed where there may be very
many. -/
def leading? (n : Nat) : Value → Except Fault (List Value)
  | .progression p => .ok ((p.take n).map .int)
  | .runs place => .ok ((Runs.take n (σ.runsAt place)).map .int)
  | .failing place =>
    if n ≤ (σ.listAt place).length then .ok ((σ.listAt place).take n) else .error .interrupted
  | v => (σ.items? v).map (List.take n)

/-- The number of items of a value. A collection that breaks off has none. -/
def count? : Value → Except Fault Nat
  | .runs place => .ok (σ.runsAt place).size
  | .enumerated place => .ok (σ.elementsAt place).length
  | .progression p => .ok p.count
  | .failing _ => .error .notIterable
  | v => (σ.items? v).map List.length

/-- The items of a collection as a list of their own. A collection that is no list can have more
items than can be counted, which is found out first. -/
def listed? : Value → Except Fault (List Value)
  | .list place => .ok (σ.listAt place)
  | .failing _ => .error .interrupted
  | v => (σ.count? v).bind fun count => (countable? count).bind fun _ => σ.items? v

/-! ## Additions -/

/-- What a value adds to a set that is kept by runs. Where a collection breaks off, its fault takes
the place of the next item. -/
def additions? : Value → Except Fault Additions
  | .runs place => .ok (.items ((σ.spelledAt place).spans.map .ok))
  | .progression p => .ok (.progression p)
  | v => (σ.pulled? v).map fun (vs, broken) =>
    .items (vs.map Value.single? ++ broken.toList.map .error)

/-- A whole collection as intervals. -/
def intervals? (v : Value) : Except Fault (List Span) :=
  (σ.additions? v).bind Additions.intervals?

/-- The set with the integers of a collection, kept by runs. -/
def runs? : Value → Except Fault SpelledRuns
  | .runs place => .ok (σ.spelledAt place)
  | v => (σ.intervals? v).map SpelledRuns.ofSpans

/-! ## Elements -/

/-- A value as it is filed in a set at the moment. -/
def element (v : Value) : Element :=
  Element.ofValue σ.runsAt v

/-- The elements among values up to the first that is none, and the fault if there is such a one, or
else the fault in which the values break off. -/
def leadingElements (vs : List Value) (broken : Option Fault) : List Element × Option Fault :=
  ((vs.takeWhile Value.isElement).map σ.element,
    if vs.all Value.isElement then broken else some .notElement)

/-- A whole collection as elements. -/
def elements? (v : Value) : Except Fault (List Element) :=
  (σ.pulled? v).bind fun (vs, broken) =>
    if vs.all Value.isElement then broken.elim (.ok (vs.map σ.element)) .error
    else .error .notElement

end Store

end SymbolSets
