/-!
# Bisection

The position at which a test on a row turns false for good is found by halving, if the row is such
that there is one: a row in some order, and a test of what comes before a bound.
-/

namespace SymbolSets

/-- The position in `lo..hi` at which `p` turns false, when `p` holds of a leading part of the array
and of nothing after it. -/
def bisect {α : Type} (p : α → Bool) (xs : Array α) (lo hi : Nat) (h : hi ≤ xs.size) : Nat :=
  if hlt : lo < hi then
    have hmid : (lo + hi) / 2 < xs.size := by omega
    if p xs[(lo + hi) / 2] then bisect p xs ((lo + hi) / 2 + 1) hi h
    else bisect p xs lo ((lo + hi) / 2) (by omega)
  else lo
termination_by hi - lo

end SymbolSets
