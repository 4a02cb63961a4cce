/-!
# Text as a sequence of code points

A text may hold any code point, surrogates included: the character of each code of a set has to be
written, and a set may hold them all. A surrogate is no character, so a text is not a `String`.

## Main definitions

* `CodePoint`, `CodePoint.ofInt?`: code points, and those among the integers.
* `Text`, `Text.ofString`: texts, and those of strings.
* `Text.ofNat`, `Text.ofInt`, `Text.ofBool`, `Text.hex`: numerals and truth values.
-/

namespace SymbolSets

/-- A code point of Unicode, surrogates included. -/
abbrev CodePoint := Fin 0x110000

namespace CodePoint

/-- The code point of a character. -/
def ofChar (c : Char) : CodePoint :=
  ⟨c.toNat, by
    have : c.toNat < 0xD800 ∨ 0xDFFF < c.toNat ∧ c.toNat < 0x110000 := c.valid
    omega⟩

/-- The code point with the given number. -/
def ofInt? (v : Int) : Option CodePoint :=
  if h : 0 ≤ v ∧ v ≤ 0x10FFFF then some ⟨v.toNat, by omega⟩ else none

end CodePoint

/-- A sequence of code points. -/
abbrev Text := List CodePoint

namespace Text

/-- The code points of a list of characters. -/
def ofChars (cs : List Char) : Text :=
  cs.map CodePoint.ofChar

/-- The code points of a string. -/
def ofString (s : String) : Text :=
  ofChars s.toList

/-- The digit with the given value below sixteen, in lower case. -/
def digit (d : Nat) : CodePoint :=
  CodePoint.ofChar (Nat.digitChar d)

/-- The decimal numeral of a natural number, without leading zeros. -/
def ofNat (n : Nat) : Text :=
  if n < 10 then [digit n] else ofNat (n / 10) ++ [digit (n % 10)]

/-- The decimal numeral of an integer: a minus sign stands before the numeral of its absolute
value when it is negative. -/
def ofInt : Int → Text
  | .ofNat n => ofNat n
  | .negSucc n => CodePoint.ofChar '-' :: ofNat (n + 1)

/-- The words for the two truth values. -/
def ofBool (b : Bool) : Text :=
  ofString (if b then "True" else "False")

/-- The last `width` hexadecimal digits of a number. -/
def hex : (width : Nat) → Nat → Text
  | 0, _ => []
  | width + 1, n => hex width (n / 16) ++ [digit (n % 16)]

/-- The texts in a row with a comma and a blank between two of them. -/
def joinComma (ts : List Text) : Text :=
  (ofChars [',', ' ']).intercalate ts

end Text

end SymbolSets
