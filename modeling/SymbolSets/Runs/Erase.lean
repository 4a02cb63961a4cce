import SymbolSets.Runs.Basic

/-!
# Removing an integer from a list of runs

Removing a bound of a run shortens it, removing its only integer removes it, and removing an integer
from its middle splits it in two. A stored set, which keeps its bounds as they are written, removes
an integer in the same way.
-/

namespace SymbolSets.Runs

/-- Removes `v` from ascending runs. The search ends at the first run that starts past `v`. -/
def erase (v : Int) : Runs → Runs
  | [] => []
  | x :: xs =>
    if v < x.lo then x :: xs
    else if v = x.lo ∧ v = x.hi then xs
    else if v = x.lo then ⟨x.lo + 1, x.hi⟩ :: xs
    else if v = x.hi then ⟨x.lo, x.hi - 1⟩ :: xs
    else if v < x.hi then ⟨x.lo, v - 1⟩ :: ⟨v + 1, x.hi⟩ :: xs
    else x :: erase v xs

end SymbolSets.Runs
