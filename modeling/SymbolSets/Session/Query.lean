import SymbolSets.Runs.Search
import SymbolSets.Session.Derivation
import SymbolSets.Store.Text
import SymbolSets.Value.Digest

/-!
# Questions

A question is answered from the store and the operands, and changes nothing. Some questions are
answered by values of every kind: whether they are equal to others, what they count as in a
condition, how they are shown, and how many and which items they have. The others are questions
about sets.

## Main definitions

* `Query`: the questions.
* `Runs.admits?`, `Runs.doubleAt?`: membership of any value in a set kept by runs, and what lies at
  a position that is no integer.
* `Store.holds?`, `Store.digest?`: questions that have an answer for values of several kinds.
* `Query.answerRuns`, `Query.answerElements`, `Query.answer`: the answers.
-/

namespace SymbolSets

/-- Whether a set holds a value, which is compared with the runs and has to be a number if there are
any. -/
def Runs.admits? (xs : Runs) (v : Value) : Except Fault Bool :=
  match v.int?, v with
  | some n, _ => .ok (xs.contains n)
  | none, .double x => .ok (xs.holdsBy x.isAtLeast x.isAtMost)
  | none, _ => if xs.isEmpty then .ok false else .error .notNumeric

/-- What lies at a position that is a double: the lower bound of the run that the position falls
into, with what is left of the position added. The lengths of the runs before are taken off it one
by one. -/
def Runs.doubleAt? : Runs → Double → Except Fault (Option Double)
  | [], _ => .ok none
  | x :: xs, d =>
    if d.isAtLeast x.length then
      (Double.ofInt? x.length).elim (.error .tooLarge) fun length => doubleAt? xs (d.sub length)
    else (Double.ofInt? x.lo).elim (.error .tooLarge) fun lo => .ok (some (lo.add d))

/-- The questions about a value or a stored set. -/
inductive Query
  /-- Membership of a number. -/
  | contains
  /-- Membership of a value of any kind; only integers are members of sets. -/
  | member
  | size
  /-- The number of items, as a 64-bit number. -/
  | length
  | isEmpty
  /-- Whether the value counts as true. -/
  | isTrue
  /-- The element at a position. -/
  | get
  | least
  | greatest
  | mark
  | intervals
  | digest
  | equal
  | unequal
  /-- The value as it is shown to people. -/
  | shown
  /-- The value as it is described in records. -/
  | description
  /-- The first few items. -/
  | take
  /-- All elements as a list, if they can be counted. -/
  | elements
  /-- All elements, however they are to be kept. -/
  | distinct
  /-- All elements, if each fits 64 bits. -/
  | words
  | textOfNumbers
  | textOfCharacters
  | textOfNames
  /-- The set by names if there is a vocabulary, and otherwise by characters or numbers. -/
  | textOfBoth
deriving DecidableEq

/-- Whether one row occurs within another without a gap. -/
def occursIn {α : Type} [BEq α] (part : List α) : List α → Bool
  | [] => part.isEmpty
  | x :: xs => part.isPrefixOf (x :: xs) || occursIn part xs

namespace Store

variable (σ : Store)

/-- Whether a value is an element of a set kept one by one. -/
def listsElement (es : Enumerated) (v : Value) : Bool :=
  Enumerated.contains σ.runsAt es (σ.element v)

/-- Whether a value is among the items of `home`. In a text and in bytes also longer parts are
found. -/
def holds? (home v : Value) : Except Fault Bool :=
  match home with
  | .runs place => .ok (v.int?.any (σ.runsAt place).contains)
  | .enumerated place => .ok (v.int?.any fun n => σ.listsElement (σ.elementsAt place) (.int n))
  | .list place => .ok (σ.isAmong v (σ.listAt place))
  | .failing place => if σ.isAmong v (σ.listAt place) then .ok true else .error .interrupted
  | .intervals xs => .ok (σ.isAmong v (xs.map .interval))
  | .progression p =>
    match v.int?, v with
    | some n, _ => .ok (p.contains n)
    | none, .double x => .ok (x.isInt (x.numerator / x.denominator) &&
        p.contains (x.numerator / x.denominator))
    | none, _ => .ok false
  | .text t =>
    match v with
    | .text s => .ok (occursIn s t)
    | _ => .error .notText
  | .bytes bs =>
    match v.int?, v with
    | some n, _ =>
      if 0 ≤ n ∧ n < 256 then .ok (bs.contains n.toNat.toUInt8) else .error .notByte
    | none, .bytes cs => .ok (occursIn cs bs)
    | none, _ => .error .notNumeric
  | .nothing | .bool _ | .int _ | .double _ | .interval _ | .vocabulary _ => .error .notIterable

/-- The digest of a value. Lists have none. -/
def digest? : Value → Except Fault Int
  | .runs place => .ok (σ.runsAt place).digest
  | .list _ => .error .notElement
  | v => v.digest?.elim (.error .unsupported) .ok

/-- The name of a token type in the vocabulary at a place, which has to be a text to be shown. -/
def name? (place : Nat) (symbol : Int) : Except Fault Text :=
  match (σ.vocabularyAt place).displayName σ.isTrue symbol with
  | .text t => .ok t
  | _ => .error .notText

end Store

namespace Query

variable (σ : Store)

/-- Integers as a new list. -/
def listed (vs : List Int) : Product :=
  .items (vs.map .int)

/-- The number of items that `take` asks for. Nothing stands for all of them. -/
def limit? (v : Value) : Except Fault (Option Nat) :=
  match v.int?, v with
  | some n, _ =>
    if n < leastWord ∨ greatestWord < n ∨ n = -1 then .error .notCount
    else if n < 0 then .error .negativeCount
    else .ok (some n.toNat)
  | none, .nothing => .ok none
  | none, _ => .error .notCount

/-- The first items of a value, as many as asked for. A value that has no items is at fault however
many are asked for. -/
def take? (subject limit : Value) : Except Fault (List Value) := do
  let _ ← σ.leading? 0 subject
  match ← limit? limit with
  | some n => σ.leading? n subject
  | none => σ.items? subject

/-- The set shown by characters if `characters` is true and by numbers if not. -/
def plainText (xs : SpelledRuns) (characters : Value) : Text :=
  xs.text (if σ.isTrue characters then .characters else .numbers)

/-- The set shown by the names of `names`. Only reserved token types are shown without a
vocabulary. -/
def namedText? (xs : SpelledRuns) (names characters : Value) : Except Fault Text :=
  match names with
  | .nothing => .ok (plainText σ xs characters)
  | .vocabulary place => xs.runs.namedText? (σ.name? place)
  | _ =>
    if xs.runs.allReserved then xs.runs.namedText? fun _ => .error .unsupported
    else .error .unsupported

/-- The element at a position, or the number that lies at a position that is a double. -/
def position? (xs : Runs) (v : Value) : Except Fault Value :=
  match v.int?, v with
  | some i, _ => .ok (.int (xs.elementAt i noElement))
  | none, .double d =>
    if d.isAtLeast 0 then
      (xs.doubleAt? d).map fun found => found.elim (.int noElement) .double
    else .ok (.int noElement)
  | none, _ => .error .notNumeric

/-- The answer about a set that is kept by runs, apart from what is asked of all values. -/
def answerRuns (q : Query) (mark : Value) (xs : SpelledRuns) (operands : List Value) :
    Except Fault Product :=
  match q, operands with
  | .contains, [v] => (xs.runs.admits? v).map fun b => .value (.bool b)
  | .size, [] => .ok (.value (.int xs.runs.size))
  | .isEmpty, [] => .ok (.value (.bool xs.runs.isEmpty))
  | .get, [v] => (position? xs.runs v).map .value
  | .least, [] => xs.least?.elim (.error (.emptySet .least)) fun b => .ok (.value (.ofBound b))
  | .greatest, [] =>
    xs.greatest?.elim (.error (.emptySet .greatest)) fun b => .ok (.value (.ofBound b))
  | .mark, [] => .ok (.value mark)
  | .intervals, [] => .ok (.value (.intervals xs.spans))
  | .elements, [] => (countable? xs.runs.size).map fun _ => listed xs.runs.elements
  | .distinct, [] => .ok (listed xs.runs.elements)
  | .words, [] =>
    if xs.runs.all fun x => leastWord ≤ x.lo && x.hi ≤ greatestWord then
      .ok (listed xs.runs.elements)
    else .error .tooLarge
  | .textOfNumbers, [] => .ok (.value (.text (xs.text .numbers)))
  | .textOfCharacters, [characters] => .ok (.value (.text (plainText σ xs characters)))
  | .textOfNames, [names] => (namedText? σ xs names (.bool false)).map fun t => .value (.text t)
  | .textOfBoth, [characters, names] =>
    (namedText? σ xs names characters).map fun t => .value (.text t)
  | _, _ => .error .operandCount

/-- The mark of an object that has none before it was given one. -/
def givenMark? (mark : Option Value) : Except Fault Product :=
  mark.elim (.error .unsupported) fun v => .ok (.value v)

/-- The answer about a set that is kept one by one, apart from what is asked of all values. -/
def answerElements (q : Query) (mark : Option Value) (es : Enumerated) (operands : List Value) :
    Except Fault Product :=
  match q, operands with
  | .contains, [v] =>
    if v.isElement then .ok (.value (.bool (σ.listsElement es v))) else .error .notElement
  | .size, [] => .ok (.value (.int es.length))
  | .isEmpty, [] => .ok (.value (.bool es.isEmpty))
  | .elements, [] => (Enumerated.listed? es).map .items
  | .mark, [] => givenMark? mark
  | .contains, _ | .size, _ | .elements, _ => .error .operandCount
  | _, _ => .error .unsupported

/-- The answer to a question about a set or a vocabulary. No other value answers it. -/
def answerObject (q : Query) (subject : Value) (operands : List Value) : Except Fault Product :=
  match subject with
  | .runs place =>
    match σ.runs[place]? with
    | some o => q.answerRuns σ o.mark o.toSpelledRuns operands
    | none => .error .unsupported
  | .enumerated place =>
    match σ.elements[place]? with
    | some o => q.answerElements σ o.mark o.elements operands
    | none => .error .unsupported
  | .vocabulary place =>
    match q, σ.vocabularies[place]? with
    | .mark, some o => givenMark? o.mark
    | _, _ => .error .unsupported
  | _ => .error .unsupported

/-- The answer about a value. -/
def answer (q : Query) (subject : Value) (operands : List Value) : Except Fault Product :=
  match q, operands with
  | .member, [v] => (σ.holds? subject v).map fun b => .value (.bool b)
  | .length, [] => ((σ.count? subject).bind countable?).map fun n => .value (.int n)
  | .isTrue, [] => .ok (.value (.bool (σ.isTrue subject)))
  | .digest, [] => (σ.digest? subject).map fun n => .value (.int n)
  | .equal, [v] => .ok (.value (.bool (σ.areEqual subject v)))
  | .unequal, [v] => .ok (.value (.bool !σ.areEqual subject v))
  | .shown, [] => .ok (.value (.text (σ.shown subject)))
  | .description, [] => .ok (.value (.text (σ.describe subject)))
  | .take, [v] => (take? σ subject v).map .items
  | _, _ => q.answerObject σ subject operands

end Query

end SymbolSets
