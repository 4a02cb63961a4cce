import SymbolSets.Double.Shortest
import SymbolSets.Fault
import SymbolSets.Interval.Span
import SymbolSets.Progression
import SymbolSets.Unicode.Printable

/-!
# Values

What a request may be given and what it may answer. Requests accept any value and refuse those that
they cannot use, so there is one type for all of them.

Sets, lists and vocabularies can change or be told apart although they hold the same, so they are
kept in a store, and a value names one of them by its kind and its place there. All other values are
what they are, wherever they occur.

## Main definitions

* `Value`, `Value.kind`: values and their kinds.
* `Value.bound?`, `Value.int?`, `Value.interval?`: reading values as a bound, as an integer, and as
  the bounds of an interval.
* `Value.isElement`: whether a value can be an element of a set that keeps its elements one by one.
* `Value.refusalText?`: the values that operators refuse, as they are shown in the message.
-/

namespace SymbolSets

/-- A value, or the place of a stored object. -/
inductive Value
  | nothing
  | bool (b : Bool)
  | int (n : Int)
  | double (x : Double)
  | text (t : Text)
  | bytes (bs : List UInt8)
  | progression (p : Progression)
  | interval (x : Span)
  /-- A row of intervals, which unlike a list never changes. -/
  | intervals (xs : List Span)
  /-- A set kept by runs. -/
  | runs (place : Nat)
  /-- A set kept one by one. -/
  | enumerated (place : Nat)
  | list (place : Nat)
  /-- A collection that breaks off in a fault of its own when it has given its items. -/
  | failing (place : Nat)
  | vocabulary (place : Nat)
deriving DecidableEq

namespace Value

/-- The kind of a value. -/
def kind : Value → Kind
  | .nothing => .nothing
  | .bool _ => .bool
  | .int _ => .int
  | .double _ => .double
  | .text _ => .text
  | .bytes _ => .bytes
  | .progression _ => .progression
  | .interval _ => .interval
  | .intervals _ => .intervals
  | .runs _ => .runs
  | .enumerated _ => .enumerated
  | .list _ => .list
  | .failing _ => .failing
  | .vocabulary _ => .vocabulary

/-- A value as a bound, which is an integer or a truth value. -/
def bound? : Value → Option Bound
  | .int n => some (.int n)
  | .bool b => some (.truth b)
  | _ => none

/-- The integer that a value is. Truth values count as `1` and `0`. -/
def int? (v : Value) : Option Int :=
  v.bound?.map Bound.toInt

@[simp] theorem int?_bool (b : Bool) : (Value.bool b).int? = some b.toInt :=
  rfl

@[simp] theorem int?_int (n : Int) : (Value.int n).int? = some n :=
  rfl

/-- The interval with the given bounds, which must both be integers. -/
def interval? (lo hi : Value) : Except Fault Span :=
  match lo.bound?, hi.bound? with
  | some a, some b => .ok (.of a b)
  | _, _ => .error (.boundsNotIntegers lo.kind hi.kind)

/-- An item as an interval of one integer. -/
def single? (v : Value) : Except Fault Span :=
  interval? v v

/-- A bound as a value. -/
def ofBound : Bound → Value
  | .int n => .int n
  | .truth b => .bool b

@[simp] theorem bound?_ofBound (b : Bound) : (ofBound b).bound? = some b := by
  cases b <;> rfl

@[simp] theorem int?_ofBound (b : Bound) : (ofBound b).int? = some b.toInt := by
  cases b <;> rfl

/-- The intervals among values, all of which must be intervals. -/
def allIntervals? (vs : List Value) : Except Fault (List Span) :=
  vs.mapM fun
    | .interval x => .ok x
    | _ => .error .unsupported

/-- Whether a value can be an element. Lists can not, for they are compared by what they hold. -/
def isElement : Value → Bool
  | .list _ => false
  | _ => true

/-- The word for nothing. -/
def nothingText : Text :=
  Text.ofString "None"

/-- A text in quotes. -/
def quotedText (t : Text) : Text :=
  Text.Quoted.encode Unicode.isPrintable t

/-- Bytes in quotes, with a letter in front of them. -/
def quotedBytes (bs : List UInt8) : Text :=
  CodePoint.ofChar 'b' ::
    Text.Quoted.encode Text.Quoted.isAsciiGraphic
      (bs.map fun b => CodePoint.ofChar (Char.ofUInt8 b))

/-- What a vocabulary is shown as, whatever its names are. -/
def vocabularyText : Text :=
  Text.ofString "<" ++ Kind.vocabulary.name ++ Text.ofString ">"

/-- The text of a value that operators between sets do not take: one without items, a text, or
bytes. -/
def refusalText? : Value → Option Text
  | .nothing => some nothingText
  | .bool b => some (Text.ofBool b)
  | .int n => some (Text.ofInt n)
  | .double x => some x.text
  | .text t => some (quotedText t)
  | .bytes bs => some (quotedBytes bs)
  | .interval x => some x.recordText
  | .vocabulary _ => some vocabularyText
  | .progression _ | .intervals _ | .runs _ | .enumerated _ | .list _ | .failing _ => none

end Value

end SymbolSets
