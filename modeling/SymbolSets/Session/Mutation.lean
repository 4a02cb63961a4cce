import SymbolSets.Store.Text

/-!
# Changes to a stored object

A change acts on one stored object and on nothing else. A change to a set that is kept by runs may
leave a record in the log, and every change may end in a fault; a collection that is added up to a
bad item shows that both a change and a fault can come of one request.

Whether a set is frozen is asked of the set as it is at the moment, by a test that the caller gives:
a set that is its own mark freezes with its first element.

## Main definitions

* `Record`, `Record.text`: the records of the log.
* `Effect`: the object after a change, the records, and the fault if there is one.
* `StoredRuns.addEach`: adding a collection.
* `Mutation`: the requests for a change.
* `Mutation.applyRuns`, `Mutation.applyElements`, `Mutation.applyList`: what comes of a change.
-/

namespace SymbolSets

/-- A record of the log. It describes the set as it was before the change. -/
inductive Record
  | rejected (change : Change) (set : Text)
  | refused (set : Text)
  | freezing (set : Text)
deriving DecidableEq

/-- The line of a record in the log, with its level. -/
def Record.text : Record → Text
  | .rejected change set =>
    Text.ofString "DEBUG: Rejected " ++ change.name ++ Text.ofString "() on readonly " ++ set
  | .refused set => Text.ofString "DEBUG: Refused to clear readonly flag on " ++ set
  | .freezing set => Text.ofString "DEBUG: Freezing " ++ set

/-- What comes of a change to an object. -/
structure Effect (α : Type) where
  object : α
  records : List Record
  fault : Option Fault

namespace Effect

variable {α : Type}

/-- The object is `o` afterwards, and nothing is recorded. -/
def done (o : α) : Effect α :=
  ⟨o, [], none⟩

/-- The object stays as it is, for the given cause. -/
def refusal (o : α) (fault : Fault) : Effect α :=
  ⟨o, [], some fault⟩

end Effect

namespace StoredRuns

/-- The set with other runs. -/
def withRuns (o : StoredRuns) (xs : SpelledRuns) : StoredRuns :=
  ⟨xs, o.mark⟩

/-- Rejects a change to a frozen set. -/
def rejection (o : StoredRuns) (change : Change) : Effect StoredRuns :=
  ⟨o, [.rejected change (o.description true)], some (.frozen change)⟩

/-- Adds intervals in turn, `count` of them at most, up to the first fault. Each of them is rejected
if the set is frozen by then; where there is none, there is nothing to reject. -/
def addEach (isFrozen : StoredRuns → Bool) :
    (count : Nat) → (o : StoredRuns) → Additions → Effect StoredRuns
  | 0, o, _ => .done o
  | count + 1, o, added =>
    match added.next? with
    | none => .done o
    | some (.error fault, _) => .refusal o fault
    | some (.ok x, rest) =>
      if isFrozen o then o.rejection .add
      else addEach isFrozen count (o.withRuns (o.insert x)) rest

/-- Removes a number between the integers: a bound of a run is trimmed, and an inner point has no
neighbours that could be bounds. -/
def removeDouble (o : StoredRuns) (d : Double) : Effect StoredRuns :=
  match o.runs.find? fun x => d.isAtLeast x.lo && d.isAtMost x.hi with
  | none => .done o
  | some x =>
    if d.isInt x.lo then .done (o.withRuns (o.erase x.lo))
    else if d.isInt x.hi then .done (o.withRuns (o.erase x.hi))
    else .refusal o (.boundsNotIntegers .int .double)

/-- Removes a value. What is not a number cannot be compared with the runs, if there are any. -/
def remove (o : StoredRuns) (v : Value) : Effect StoredRuns :=
  match v.int?, v with
  | some n, _ => .done (o.withRuns (o.erase n))
  | none, .double d => o.removeDouble d
  | none, _ => if o.runs.isEmpty then .done o else .refusal o .notNumeric

/-- Assigns the mark. A frozen set keeps a mark that counts as true. -/
def assignMark (isFrozen : StoredRuns → Bool) (o : StoredRuns) (v : Value) : Effect StoredRuns :=
  let marked : StoredRuns := { o with mark := v }
  match isFrozen o, isFrozen marked with
  | true, false => ⟨o, [.refused (o.description true)], some .markKept⟩
  | false, true => ⟨marked, [.freezing (o.description false)], none⟩
  | _, _ => .done marked

end StoredRuns

/-- The requests that may change a stored object. -/
inductive Mutation
  | add
  | addAll
  | remove
  | clear
  | freeze
  | mark
deriving DecidableEq

namespace Mutation

/-- Whether the request answers with the object itself. -/
def answersReceiver : Mutation → Bool
  | .addAll | .freeze => true
  | .add | .remove | .clear | .mark => false

/-- A change to a set that is kept by runs. -/
def applyRuns (m : Mutation) (σ : Store) (isFrozen : StoredRuns → Bool) (o : StoredRuns)
    (operands : List Value) : Effect StoredRuns :=
  let addRange (lo hi : Value) : Effect StoredRuns :=
    o.addEach isFrozen 1 (.items [Value.interval? lo hi])
  match m, operands with
  | .add, [v] | .add, [v, .nothing] => addRange v v
  | .add, [lo, hi] => addRange lo hi
  | .addAll, [v] =>
    match σ.additions? v with
    | .ok added => o.addEach isFrozen added.count added
    | .error fault => .refusal o fault
  | .remove, [v] => if isFrozen o then o.rejection .remove else o.remove v
  | .clear, [] => if isFrozen o then o.rejection .clear else .done (o.withRuns .empty)
  | .freeze, [] => o.assignMark isFrozen (.bool true)
  | .mark, [v] => o.assignMark isFrozen v
  | _, _ => .refusal o .operandCount

/-- A change to a set that is kept one by one. A mark does not freeze it. -/
def applyElements (m : Mutation) (σ : Store) (o : StoredElements) (operands : List Value) :
    Effect StoredElements :=
  let add (vs : List Value) (broken : Option Fault) : Effect StoredElements :=
    let (added, fault) := σ.leadingElements vs broken
    let elements := Enumerated.union σ.runsAt o.elements (Enumerated.ofList σ.runsAt added)
    ⟨{ o with elements }, [], fault⟩
  match m, operands with
  | .add, [v] => add [v] none
  | .addAll, [v] =>
    match σ.pulled? v with
    | .ok (vs, broken) => add vs broken
    | .error fault => .refusal o fault
  | .remove, [v] =>
    if v.isElement then
      .done { o with elements := Enumerated.erase σ.runsAt (σ.element v) o.elements }
    else .refusal o .notElement
  | .mark, [v] => .done { o with mark := some v }
  | .clear, _ | .freeze, _ => .refusal o .unsupported
  | _, _ => .refusal o .operandCount

/-- A change to a list. The first item that is equal to an operand can be removed, or all items. -/
def applyList (m : Mutation) (σ : Store) (vs : List Value) (operands : List Value) :
    Effect (List Value) :=
  match m, operands with
  | .clear, [] => .done []
  | .remove, [v] =>
    if σ.isAmong v vs then .done (vs.eraseP (σ.areEqual v)) else .refusal vs .absentItem
  | .clear, _ | .remove, _ => .refusal vs .operandCount
  | _, _ => .refusal vs .unsupported

end Mutation

end SymbolSets
