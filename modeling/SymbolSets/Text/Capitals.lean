import SymbolSets.Unicode.Lowercase
import SymbolSets.Unicode.Titlecase
import SymbolSets.Unicode.Uppercase

/-!
# Text in capitals

Only letters count that have a case: a text is in capitals if it has an uppercase letter and no
letter in another case. So digits, signs and letters of alphabets without case may stand anywhere in
it, and a text without any letter is not in capitals.

## Main definitions

* `Text.isInCapitals`: texts in capitals.
* `areCapitals`: bytes that are a text in capitals, with ASCII letters only.
-/

namespace SymbolSets

/-- Whether a text has an uppercase letter and none in lowercase or titlecase. -/
def Text.isInCapitals (t : Text) : Bool :=
  t.any Unicode.isUppercase && t.all fun c => !(Unicode.isLowercase c || Unicode.isTitlecase c)

/-- Whether there is an uppercase ASCII letter among bytes and none in lowercase. -/
def areCapitals (bs : List UInt8) : Bool :=
  bs.any (fun b => 65 ≤ b && b ≤ 90) && bs.all fun b => !(97 ≤ b && b ≤ 122)

end SymbolSets
