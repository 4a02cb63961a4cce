import SymbolSets.Value.Basic

/-!
# An order of values

Values are put in one order, so that a set that keeps them one by one has a single form. Numbers of
all kinds are ordered by size, texts and bytes by their items, objects by their places, and values
of different kinds by kind. Two values that are no sets kept by runs and no lists are equal when
neither comes before the other: a truth value, an integer and a double are equal if they are the
same number.

Sets that are kept by runs are equal when they hold the same, which the order cannot see, and so are
lists. The order puts all of them in the same place.

## Main definitions

* `Value.order`: the order.
* `Value.areComparable`: whether values can be put in a row from the least to the greatest.
-/

namespace SymbolSets

/-- Intervals in the order of their lower bounds, and then of their upper bounds. -/
def Interval.order (x y : Interval) : Ordering :=
  (compare x.lo y.lo).then (compare x.hi y.hi)

namespace Value

/-- The number that a value is, as a fraction. -/
def fraction? : Value → Option (Int × Nat)
  | .bool b => some (b.toInt, 1)
  | .int n => some (n, 1)
  | .double x => some (x.numerator, x.denominator)
  | _ => none

/-- Whether a value is a number. -/
def isNumber (v : Value) : Bool :=
  v.fraction?.isSome

/-- Whether a value is a text. -/
def isText : Value → Bool
  | .text _ => true
  | _ => false

/-- Whether a value is a row of bytes. -/
def isBytes : Value → Bool
  | .bytes _ => true
  | _ => false

/-- The place of the kind of a value among the kinds. -/
def rank : Value → Nat
  | .bool _ | .int _ | .double _ => 0
  | .text _ => 1
  | .bytes _ => 2
  | .nothing => 3
  | .interval _ => 4
  | .intervals _ => 5
  | .progression _ => 6
  | .runs _ => 7
  | .enumerated _ => 8
  | .vocabulary _ => 9
  | .list _ => 10
  | .failing _ => 11

/-- The order of two values. -/
def order (v w : Value) : Ordering :=
  match v.fraction?, w.fraction? with
  | some (a, b), some (c, d) => compare (a * d) (c * b)
  | _, _ =>
    match v, w with
    | .text s, .text t => List.compareLex compare s t
    | .bytes bs, .bytes cs => List.compareLex compare bs cs
    | .progression p, .progression q => p.order q
    | .interval x, .interval y => x.interval.order y.interval
    | .intervals xs, .intervals ys =>
      List.compareLex Interval.order (xs.map Span.interval) (ys.map Span.interval)
    | .enumerated i, .enumerated j => compare i j
    | .vocabulary i, .vocabulary j => compare i j
    | .failing i, .failing j => compare i j
    | _, _ => compare v.rank w.rank

/-- Whether each value is a row of intervals with which the next one starts. -/
def areNested : List Value → Bool
  | .intervals xs :: .intervals ys :: rest =>
    (xs.map Span.interval).isPrefixOf (ys.map Span.interval) && areNested (.intervals ys :: rest)
  | [.intervals _] | [] => true
  | _ => false

/-- Whether values in their order can be put in a row from the least to the greatest. Only numbers,
texts and bytes can, and each only among themselves, and rows of intervals if they differ in length
alone; a single value needs no comparison. -/
def areComparable (vs : List Value) : Bool :=
  vs.length ≤ 1 || vs.all isNumber || vs.all isText || vs.all isBytes || areNested vs

end Value

end SymbolSets
