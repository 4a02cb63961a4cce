import SymbolSets.Digest
import SymbolSets.Runs.Basic

/-!
# The digest of a set

A set is digested by the bounds of all its runs in a row, so equal lists of runs have equal digests.
-/

namespace SymbolSets.Runs

/-- The digest of the bounds of all runs. -/
def digest (xs : Runs) : Int :=
  Digest.ofWords 0 xs.bounds

end SymbolSets.Runs
