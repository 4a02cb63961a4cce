import SymbolSets.Interval.Position
import SymbolSets.Runs.Basic

/-!
# Adding an interval to a list of runs

The new interval is merged with the first run that it touches, and the merged interval swallows the
runs after it for as long as it touches them. If it touches none it takes its place between the
runs. A stored set, which keeps its bounds as they are written, adds an interval in the same way.

## Main definitions

* `Runs.absorb`: an interval put in front of a list, swallowing what it touches.
* `Runs.insert`, `Runs.insertAll`: adding one interval, and several in turn.
-/

namespace SymbolSets.Runs

/-- `r` in front of the runs, merged with the leading ones that it touches. -/
def absorb (r : Interval) : Runs → Runs
  | [] => [r]
  | x :: xs => if r.Touches x then absorb (r.hull x) xs else r :: x :: xs

/-- The place of a non-empty interval `r` among ascending runs. -/
def place (r : Interval) : Runs → Runs
  | [] => [r]
  | x :: xs =>
    if r = x then x :: xs
    else if r.Touches x then absorb (r.hull x) xs
    else if r.Precedes x then r :: x :: xs
    else x :: place r xs

/-- Adds every integer of `r`. An empty interval adds nothing. -/
def insert (r : Interval) (xs : Runs) : Runs :=
  if r.IsEmpty then xs else place r xs

/-- Adds intervals in the order given. -/
def insertAll (xs : Runs) (rs : List Interval) : Runs :=
  rs.foldl (fun acc r => insert r acc) xs

/-- The set of the integers of some intervals, which may overlap and come in any order. -/
def ofIntervals (rs : List Interval) : Runs :=
  insertAll [] rs

end SymbolSets.Runs
