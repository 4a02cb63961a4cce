import SymbolSets.Fault

/-!
# What can be counted

Sets may hold more elements than there is room for, since most of what is asked of them needs no
list of the elements. Where the elements are listed, or a number is to fit 64 bits, there is a
limit.

## Main definitions

* `leastWord`, `greatestWord`: the limits of 64-bit integers.
* `countable?`: a number of items as a 64-bit integer.
-/

namespace SymbolSets

/-- The greatest 64-bit integer. -/
def greatestWord : Int := 0x7FFFFFFFFFFFFFFF

/-- The least 64-bit integer. -/
def leastWord : Int := -0x8000000000000000

/-- A number of items, which has to fit 64 bits. -/
def countable? (count : Nat) : Except Fault Int :=
  if (count : Int) ≤ greatestWord then .ok count else .error .tooLarge

end SymbolSets
