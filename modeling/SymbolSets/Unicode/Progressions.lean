import SymbolSets.Text.Basic

/-!
# Tables of code points

In many alphabets capital and small letters alternate, so that a table of the code points with some
property is short as a list of arithmetic progressions.
-/

namespace SymbolSets.Unicode

/-- Code points at equal distances: the first and the last of them, and the distance. -/
abbrev Progressions := Array (Nat × Nat × Nat)

/-- Whether a code point lies in one of the progressions. -/
def Progressions.hold (ps : Progressions) (c : CodePoint) : Bool :=
  ps.any fun (first, last, distance) =>
    first ≤ c.val && c.val ≤ last && (c.val - first) % distance == 0

end SymbolSets.Unicode
