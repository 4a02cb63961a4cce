import SymbolSets.Interval.Basic

/-!
# Reserved integers

A symbol is an integer: a character code or a token type. Two negative token types are reserved, and
character codes fill one fixed range.
-/

namespace SymbolSets

/-- The token type that stands for the end of the input. -/
def endOfInput : Int := -1

/-- The token type that stands for a move without input. -/
def epsilon : Int := -2

/-- The reserved token types. -/
def reserved : Interval :=
  ⟨epsilon, endOfInput⟩

/-- What a look-up by position answers when there is no element there. It is also a legal element:
the two are told apart by the size of the set. -/
def noElement : Int := -1

/-- The least character code. -/
def firstCharacter : Int := 0

/-- The greatest character code. -/
def lastCharacter : Int := 0x10FFFF

/-- All character codes. -/
def allCharacters : Interval :=
  ⟨firstCharacter, lastCharacter⟩

/-- Intervals of one integer from `0` to this bound are common enough to be worth sharing. Sharing
shows in nothing but the way in which the bounds are written. -/
def sharedSingleLimit : Int := 1000

end SymbolSets
