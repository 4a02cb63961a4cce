import SymbolSets.Decimal.Basic
import SymbolSets.Text.Basic

/-!
# Decimal numerals

Numerals are read with an optional sign, fraction and exponent. They are written with as few digits
as the number has, by place value when it is neither very large nor very small, and otherwise with
an exponent.

## Main definitions

* `Decimal.read?`: the number that a numeral stands for.
* `Decimal.Layout`, `Decimal.layout`: where place value ends, and how an exponent looks.
* `Decimal.text`: the numeral of a number.
-/

namespace SymbolSets.Decimal

/-! ## Reading -/

/-- The value of a row of decimal digits. -/
def digitsValue (cs : List Char) : Nat :=
  cs.foldl (fun n c => 10 * n + (c.toNat - '0'.toNat)) 0

/-- The number of a numeral of digits alone. -/
def natural? (cs : List Char) : Option Nat :=
  if cs ≠ [] ∧ cs.all Char.isDigit then some (digitsValue cs) else none

/-- The number of a numeral of digits after an optional sign. -/
def integer? : List Char → Option Int
  | '-' :: cs => (natural? cs).map fun n => -(n : Int)
  | '+' :: cs => (natural? cs).map fun n => (n : Int)
  | cs => (natural? cs).map fun n => (n : Int)

/-- The number of a numeral without sign, its exponent separated from it already. -/
def unsigned? (mantissa : List Char) (exponent : Int) (negative : Bool) : Option Decimal :=
  let whole := mantissa.takeWhile Char.isDigit
  match mantissa.dropWhile Char.isDigit with
  | [] => (natural? whole).map fun n => ⟨negative, n, exponent⟩
  | '.' :: fraction =>
    (natural? (whole ++ fraction)).map fun n => ⟨negative, n, exponent - fraction.length⟩
  | _ => none

/-- The number that a numeral such as `-12.5e3` stands for. -/
def read? (cs : List Char) : Option Decimal :=
  let isMark : Char → Bool := fun c => c == 'e' || c == 'E'
  let (negative, body) :=
    match cs with
    | '-' :: rest => (true, rest)
    | '+' :: rest => (false, rest)
    | _ => (false, cs)
  let mantissa := body.takeWhile fun c => !isMark c
  match body.dropWhile fun c => !isMark c with
  | [] => unsigned? mantissa 0 negative
  | _ :: exponent => (integer? exponent).bind fun e => unsigned? mantissa e negative

/-! ## Writing -/

/-- The decisions that a numeral leaves open. -/
structure Layout where
  /-- The least power of ten of a leading digit that is written by place value. -/
  positionalFrom : Int
  /-- The first power of ten of a leading digit that is not written by place value any more. -/
  positionalBelow : Int
  /-- The least number of digits of an exponent. -/
  exponentDigits : Nat

/-- Numbers from `0.0001` on and below `10 ^ 16` are written by place value, and exponents have at
least two digits. -/
def layout : Layout :=
  ⟨-4, 16, 2⟩

/-- The digits without the zeros at their end, and how many zeros there were. -/
def stripZeros (n : Nat) : Nat × Nat :=
  if _h : n ≠ 0 ∧ n % 10 = 0 then
    let (m, k) := stripZeros (n / 10)
    (m, k + 1)
  else (n, 0)
termination_by n
decreasing_by omega

/-- A row of zeros. -/
def zeros (n : Nat) : Text :=
  List.replicate n (CodePoint.ofChar '0')

/-- Digits written by place value, the leading one of them standing for `10 ^ lead`. There is at
least one digit on each side of the point. -/
def positional (digits : Text) (lead : Int) : Text :=
  let point := CodePoint.ofChar '.'
  if lead < 0 then
    zeros 1 ++ point :: zeros (-lead - 1).toNat ++ digits
  else
    let whole := (digits ++ zeros (lead.toNat + 1 - digits.length)).take (lead.toNat + 1)
    let fraction := digits.drop (lead.toNat + 1)
    whole ++ point :: (if fraction.isEmpty then zeros 1 else fraction)

/-- Digits with an exponent, a point following the first digit when there are more. -/
def scientific (digits : Text) (lead : Int) (width : Nat) : Text :=
  let exponent := Text.ofNat lead.natAbs
  let sign := CodePoint.ofChar (if lead < 0 then '-' else '+')
  let mantissa := match digits with
    | d :: e :: rest => d :: CodePoint.ofChar '.' :: e :: rest
    | _ => digits
  mantissa ++ CodePoint.ofChar 'e' :: sign :: zeros (width - exponent.length) ++ exponent

/-- The numeral of a number. -/
def text (d : Decimal) : Text :=
  let sign := if d.negative then [CodePoint.ofChar '-'] else []
  if d.digits = 0 then sign ++ positional (zeros 1) 0
  else
    let (significand, dropped) := stripZeros d.digits
    let digits := Text.ofNat significand
    let lead := d.exponent + dropped + digits.length - 1
    if layout.positionalFrom ≤ lead ∧ lead < layout.positionalBelow then
      sign ++ positional digits lead
    else sign ++ scientific digits lead layout.exponentDigits

end SymbolSets.Decimal
