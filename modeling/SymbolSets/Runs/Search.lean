import SymbolSets.Bisection
import SymbolSets.Runs.Basic

/-!
# Finding a run by bisection

The runs of a set start in ascending order, so the only run that can hold a value is the last one
that starts no later. It is found by halving. The value is asked about through two tests on
integers, so that values other than integers can be looked for as well.

## Main definitions

* `Runs.holdsBy`, `Runs.contains`: membership of a value given by its tests, and of an integer.
-/

namespace SymbolSets

namespace Runs

/-- Whether some run holds a value `v`, given the tests `n ≤ v` and `v ≤ n` on integers `n`. -/
def holdsBy (startsBy endsFrom : Int → Bool) (xs : Runs) : Bool :=
  let runs := xs.toArray
  match bisect (fun x => startsBy x.lo) runs 0 runs.size (Nat.le_refl _) with
  | 0 => false
  | i + 1 => (runs[i]?).any fun x => endsFrom x.hi

/-- Whether the set holds the integer `v`. -/
def contains (xs : Runs) (v : Int) : Bool :=
  xs.holdsBy (fun n => n ≤ v) (fun n => v ≤ n)

end Runs

end SymbolSets
