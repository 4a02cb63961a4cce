import SymbolSets.Text.Quoted

/-!
# What can go wrong

A fault is the cause for which a request is refused. Some faults come with a message for people.

## Main definitions

* `Kind`, `Kind.name`: the kinds of values, and their names in messages.
* `Operator`, `Fold`, `Change`, `Extreme`: what a fault may be about.
* `Fault`, `Fault.message?`.
-/

namespace SymbolSets

/-- The kinds of values. Sets kept by runs and sets kept one by one are two kinds, and every other
implementation of sets has a kind of its own. -/
inductive Kind
  | nothing
  | bool
  | int
  | double
  | text
  | bytes
  | list
  | failing
  | progression
  | interval
  | intervals
  | runs
  | enumerated
  | implementation (name : Text)
  | vocabulary
deriving DecidableEq

/-- The name of a kind in messages. -/
def Kind.name : Kind → Text
  | .nothing => Text.ofString "NoneType"
  | .bool => Text.ofString "bool"
  | .int => Text.ofString "int"
  | .double => Text.ofString "float"
  | .text => Text.ofString "str"
  | .bytes => Text.ofString "bytes"
  | .list => Text.ofString "list"
  | .failing => Text.ofString "FailingIterable"
  | .progression => Text.ofString "range"
  | .interval => Text.ofString "Interval"
  | .intervals => Text.ofString "tuple"
  | .runs => Text.ofString "IntervalSet"
  | .enumerated => Text.ofString "PlainIntSet"
  | .implementation name => name
  | .vocabulary => Text.ofString "VocabularyImpl"

/-- The operators between a set and a collection. -/
inductive Operator
  | union
  | inter
  | diff
deriving DecidableEq

/-- The sign of an operator. -/
def Operator.sign : Operator → Text
  | .union => Text.ofChars ['|']
  | .inter => Text.ofChars ['&']
  | .diff => Text.ofChars ['-']

/-- The operators that are applied to any number of operands, from left to right. -/
inductive Fold
  | union
  | inter
deriving DecidableEq

/-- The operator that is folded. -/
def Fold.operator : Fold → Operator
  | .union => .union
  | .inter => .inter

/-- The changes that a frozen set rejects. -/
inductive Change
  | add
  | remove
  | clear
deriving DecidableEq

/-- The name of a change in messages. -/
def Change.name : Change → Text
  | .add => Text.ofString "add"
  | .remove => Text.ofString "remove"
  | .clear => Text.ofString "clear"

/-- The two ends of a set. -/
inductive Extreme
  | least
  | greatest
deriving DecidableEq

/-- The cause for which a request is refused. -/
inductive Fault
  /-- The bounds of an interval are not both integers. -/
  | boundsNotIntegers (lo hi : Kind)
  /-- A change to a frozen set. -/
  | frozen (change : Change)
  /-- An attempt to take the mark off a frozen set. -/
  | markKept
  /-- An operator met an operand that is no collection, or that is a text or bytes. -/
  | operandRefused (operator : Operator) (receiver operand : Kind) (shown : Text)
  /-- A universe given by its lower bound alone. -/
  | loneBound (shown : Text)
  /-- The least or greatest element of an empty set. -/
  | emptySet (extreme : Extreme)
  /-- A fold of nothing. -/
  | noOperands (fold : Fold)
  /-- A value that has no items. -/
  | notIterable
  /-- The fault in which a collection breaks off after its last item. It is not a fault of sets, and
  nothing is known of it. -/
  | interrupted
  /-- A value that is not a number where the order of numbers matters. -/
  | notNumeric
  /-- A list where an element is asked for. Lists are no elements, for they can change. -/
  | notElement
  /-- Values of kinds between which there is no order. -/
  | notComparable
  /-- Values between which an operator is not defined. -/
  | notOperable
  /-- A progression that stays where it starts. -/
  | zeroStep
  /-- A number of items that is no number, or none that a count can have. -/
  | notCount
  /-- A number of items below zero. -/
  | negativeCount
  /-- A number that is no byte where bytes are searched. -/
  | notByte
  /-- A number that is no byte in a row of bytes. -/
  | notBytes
  /-- An item to be removed from a list that does not hold it. -/
  | absentItem
  /-- A name that is not a text. -/
  | notText
  /-- A value that lacks the operation asked for. -/
  | unsupported
  /-- A mark for an interval. Intervals never change. -/
  | unchangeable
  /-- A number beyond the range of 64-bit integers. -/
  | tooLarge
  /-- More or fewer operands than the request takes. -/
  | operandCount
  /-- A register that nothing was put into. -/
  | unknownRegister
deriving DecidableEq

namespace Fault

/-- Strings in a row, as a text. -/
def say (parts : List String) : Text :=
  Text.ofString (String.join parts)

/-- The message of a fault, for those that come with one. -/
def message? : Fault → Option Text
  | .boundsNotIntegers lo hi => some <|
    say ["Interval bounds must be int, got '"] ++ lo.name ++ say ["' and '"] ++ hi.name ++
      say ["'.\n",
        "Hint: pass code points, not characters: Interval.of(ord('a'), ord('z'))"]
  | .frozen change => some <|
    say ["can't alter readonly IntervalSet ("] ++ change.name ++
      say [").\n", "Hint: Make a mutable copy first: IntervalSet(frozen_set)."] ++ change.name ++
      say ["(...)"]
  | .markKept => some <|
    say ["can't alter readonly IntervalSet: the readonly flag cannot be cleared.\n",
      "Hint: Make a mutable copy instead: IntervalSet(frozen_set)"]
  | .operandRefused operator receiver operand shown => some <|
    say ["Cannot combine ("] ++ operator.sign ++ say [") a "] ++ receiver.name ++
      say [" with '"] ++ operand.name ++ say ["'.\n", "Got: "] ++ receiver.name ++ say [" "] ++
      operator.sign ++ say [" "] ++ shown ++
      say ["\n", "Hint: Use another set or an iterable of ints: s "] ++ operator.sign ++
      say [" IntervalSet.of(1, 5)  or  s "] ++ operator.sign ++ say [" [1, 2, 3]"]
  | .loneBound shown => some <|
    say ["complement() got a single int ("] ++ shown ++
      say [").\n", "Hint: Pass both bounds, complement(minimum, maximum), ",
        "or a universe set: complement(vocabulary_set)"]
  | .emptySet .least => some (say ["set is empty: min_element is undefined"])
  | .emptySet .greatest => some (say ["set is empty: max_element is undefined"])
  | .noOperands .union => some <|
    say ["union() requires at least one set argument.\n",
      "Example: union(digits, letters, underscore)"]
  | .noOperands .inter => some <|
    say ["intersection() requires at least one set argument.\n",
      "Example: intersection(identifier_start, ascii)"]
  | .zeroStep => some (say ["range() arg 3 must not be zero"])
  | .notCount => some <|
    say ["Stop argument for islice() must be None or an integer: 0 <= x <= sys.maxsize."]
  | .negativeCount => some <|
    say ["Indices for islice() must be None or an integer: 0 <= x <= sys.maxsize."]
  | .notByte => some (say ["byte must be in range(0, 256)"])
  | .notBytes => some (say ["bytes must be in range(0, 256)"])
  | .absentItem => some (say ["list.remove(x): x not in list"])
  | .notIterable | .interrupted | .notNumeric | .notElement | .notComparable | .notOperable
  | .notText | .unsupported | .unchangeable | .tooLarge | .operandCount | .unknownRegister => none

end Fault

end SymbolSets
