import SymbolSets.Bisection
import SymbolSets.Runs.Digest
import SymbolSets.Value.Order

/-!
# Sets that keep their elements one by one

The sets of another implementation than the one by runs: one such implementation, as an instance of
what others may be. A set keeps its elements in the order of values, each once. Of two values that
are the same element the one that came first is kept.

A set that is kept by runs can be an element too. It is filed under the digest that it had when it
came in, and it is found by a set that has this digest and is the same object or holds the same now.
So operations that compare elements take the present runs of every such set, as a function of its
place.

## Main definitions

* `Element`, `Element.order`, `Element.isSame`: elements as they are filed.
* `Enumerated`, `Enumerated.contains`.
* `Enumerated.union`, `Enumerated.inter`, `Enumerated.diff`, `Enumerated.erase`.
* `Enumerated.apply`: what the operators do to two sets.
* `Enumerated.ofList`: the set of the elements of a list.
* `Enumerated.listed?`: the elements from the least to the greatest, if they can be compared.
* `Enumerated.ints`: the integers among the elements.
-/

namespace SymbolSets

/-- A value with the digest that it is filed under, which is zero for all but sets kept by runs. -/
structure Element where
  value : Value
  digest : Int
deriving DecidableEq

namespace Element

/-- A value as it is filed at the moment. -/
def ofValue (runsAt : Nat → Runs) (v : Value) : Element :=
  match v with
  | .runs place => ⟨v, (runsAt place).digest⟩
  | _ => ⟨v, 0⟩

/-- Elements in the order of their values, and then of their digests. -/
def order (a b : Element) : Ordering :=
  (a.value.order b.value).then (compare a.digest b.digest)

/-- Whether two values are the same element. -/
def isSame (runsAt : Nat → Runs) (a b : Element) : Bool :=
  a.order b == .eq &&
    match a.value, b.value with
    | .runs i, .runs j => i == j || runsAt i == runsAt j
    | _, _ => true

end Element

/-- A set of values, listed in their order without repetition. -/
abbrev Enumerated := List Element

namespace Enumerated

variable (runsAt : Nat → Runs)

/-- Whether there is an element among those of an array, which stand in their order. -/
def isAmong (es : Array Element) (e : Element) : Bool :=
  let first := bisect (fun f => f.order e == .lt) es 0 es.size (Nat.le_refl _)
  let last := bisect (fun f => f.order e != .gt) es 0 es.size (Nat.le_refl _)
  (es.extract first last).any (e.isSame runsAt)

/-- Whether a set holds an element. -/
def contains (es : Enumerated) (e : Element) : Bool :=
  isAmong runsAt es.toArray e

/-- Two sets merged in front of elements that are done with, which come in reverse order. Where both
hold the same element the left one stays. -/
def mergeOnto (done : List Element) : Enumerated → Enumerated → Enumerated
  | [], ys => done.reverseAux ys
  | x :: xs, [] => done.reverseAux (x :: xs)
  | x :: xs, y :: ys =>
    match x.order y with
    | .lt => mergeOnto (x :: done) xs (y :: ys)
    | .gt => mergeOnto (y :: done) (x :: xs) ys
    | .eq => mergeOnto (x :: done) xs ((y :: ys).eraseP (x.isSame runsAt))
termination_by xs ys => xs.length + ys.length
decreasing_by
  · simp
  · simp
  · exact Nat.lt_of_le_of_lt (Nat.add_le_add_left List.length_eraseP_le _) (by simp)

/-- The elements of two sets. -/
def union (xs ys : Enumerated) : Enumerated :=
  mergeOnto runsAt [] xs ys

/-- Whether each element comes before the next one. -/
def isAscending : List Element → Bool
  | e :: f :: es => e.order f == .lt && isAscending (f :: es)
  | [_] | [] => true

/-- The set of the elements of a list in any order: the list itself if it ascends, and else the
union of the sets of its halves. -/
def ofList (es : List Element) : Enumerated :=
  if isAscending es then es
  else union runsAt (ofList (es.take (es.length / 2))) (ofList (es.drop (es.length / 2)))
termination_by es.length
decreasing_by
  all_goals
    rename_i h
    have : 2 ≤ es.length := by
      match es, h with
      | [], h | [_], h => simp [isAscending] at h
      | _ :: _ :: _, _ => simp
    simp only [List.length_take, List.length_drop]
    omega

/-- The common elements of two sets, as the smaller one has them, or the right one if they are
equally large. -/
def inter (xs ys : Enumerated) : Enumerated :=
  if ys.length ≤ xs.length then
    let others := xs.toArray
    ys.filter (isAmong runsAt others)
  else
    let others := ys.toArray
    xs.filter (isAmong runsAt others)

/-- The elements of a list that a set does not hold. -/
def diff (xs : List Element) (ys : Enumerated) : List Element :=
  let others := ys.toArray
  xs.filter fun e => !isAmong runsAt others e

/-- What the operators do to two sets. -/
def apply : Operator → Enumerated → Enumerated → Enumerated
  | .union => union runsAt
  | .inter => inter runsAt
  | .diff => diff runsAt

/-- The elements other than `e`. -/
def erase (e : Element) (xs : Enumerated) : Enumerated :=
  xs.filter fun f => !e.isSame runsAt f

/-- The values from the least to the greatest, if they can be compared. -/
def listed? (xs : Enumerated) : Except Fault (List Value) :=
  let vs := xs.map Element.value
  if Value.areComparable vs then .ok vs else .error .notComparable

/-- The integers among the elements. -/
def ints (es : List Element) : List Int :=
  (es.map Element.value).filterMap Value.int?

end Enumerated

end SymbolSets
