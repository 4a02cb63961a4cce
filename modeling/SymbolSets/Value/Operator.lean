import SymbolSets.Value.Basic

/-!
# Operators on values that are no sets

The three operators between sets are defined for numbers too: union and intersection go bit by bit
through two integers in two's complement, and the difference is that of the numbers.

## Main definitions

* `bitOr`, `bitAnd`: the operations on the bits of integers of any size.
* `Value.operate?`: the operators.
-/

namespace SymbolSets

/-- The bits that are set in at least one of two integers. -/
def bitOr : Int → Int → Int
  | .ofNat a, .ofNat b => .ofNat (a ||| b)
  | .ofNat a, .negSucc b | .negSucc b, .ofNat a => .negSucc (b ^^^ (b &&& a))
  | .negSucc a, .negSucc b => .negSucc (a &&& b)

/-- The bits that are set in both of two integers. -/
def bitAnd : Int → Int → Int
  | .ofNat a, .ofNat b => .ofNat (a &&& b)
  | .ofNat a, .negSucc b | .negSucc b, .ofNat a => .ofNat (a ^^^ (a &&& b))
  | .negSucc a, .negSucc b => .negSucc (a ||| b)

namespace Value

/-- The double that is nearest to a number. -/
def double? : Value → Except Fault Double
  | .double x => .ok x
  | v =>
    match v.int? with
    | some n => (Double.ofInt? n).elim (.error .tooLarge) .ok
    | none => .error .notOperable

/-- The difference of two numbers, which is an integer if both are. -/
def difference? (v w : Value) : Except Fault Value :=
  match v.int?, w.int? with
  | some m, some n => .ok (.int (m - n))
  | _, _ =>
    match v.double?, w.double? with
    | .ok x, .ok y => .ok (.double (x.sub y))
    | .error .tooLarge, .ok _ | .ok _, .error .tooLarge => .error .tooLarge
    | _, _ => .error .notOperable

/-- The result of an operator between two values the first of which is no set. -/
def operate? (operator : Operator) (v w : Value) : Except Fault Value :=
  match operator, v, w with
  | .union, .bool a, .bool b => .ok (.bool (a || b))
  | .inter, .bool a, .bool b => .ok (.bool (a && b))
  | .diff, v, w => difference? v w
  | .union, v, w =>
    match v.int?, w.int? with
    | some m, some n => .ok (.int (bitOr m n))
    | _, _ => .error .notOperable
  | .inter, v, w =>
    match v.int?, w.int? with
    | some m, some n => .ok (.int (bitAnd m n))
    | _, _ => .error .notOperable

end Value

end SymbolSets
