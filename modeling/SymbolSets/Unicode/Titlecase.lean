import SymbolSets.Unicode.Progressions

/-!
# Titlecase letters

The code points of general category Lt, as of Unicode 14: letters that stand for two, of which only
the first is a capital.
-/

namespace SymbolSets.Unicode

/-- The titlecase letters. -/
def titlecaseLetters : Progressions := #[
  (0x1C5, 0x1C5, 1), (0x1C8, 0x1C8, 1), (0x1CB, 0x1CB, 1), (0x1F2, 0x1F2, 1), (0x1F88, 0x1F8F, 1),
  (0x1F98, 0x1F9F, 1), (0x1FA8, 0x1FAF, 1), (0x1FBC, 0x1FBC, 1), (0x1FCC, 0x1FCC, 1),
  (0x1FFC, 0x1FFC, 1)]

/-- Whether a code point is a titlecase letter. -/
def isTitlecase (c : CodePoint) : Bool :=
  titlecaseLetters.hold c

end SymbolSets.Unicode
