import SymbolSets.Runs.Spans

/-!
# Sets with their bounds as they are written

A set that is kept by runs keeps the bounds of its runs as they were given. What it holds does not
depend on that: each operation does to its runs what it would do if all bounds were plain integers.

## Main definitions

* `SpelledRuns`, `SpelledRuns.runs`: a set by its runs as they are written, and the runs.
* `SpelledRuns.least?`, `SpelledRuns.greatest?`: the bounds of a set.
* `SpelledRuns.insert`, `SpelledRuns.insertAll`, `SpelledRuns.ofSpans`: adding intervals.
* `SpelledRuns.erase`, `SpelledRuns.inter`, `SpelledRuns.diff`: the other operations.
-/

namespace SymbolSets

/-- A set by its runs as they are written. -/
structure SpelledRuns where
  spans : List Span
deriving DecidableEq

namespace SpelledRuns

/-- The runs, however they are written. -/
def runs (xs : SpelledRuns) : Runs :=
  xs.spans.map Span.interval

/-- The least integer of the set, as it is written. -/
def least? (xs : SpelledRuns) : Option Bound :=
  xs.spans.head?.map Span.lo

/-- The greatest integer of the set, as it is written. -/
def greatest? (xs : SpelledRuns) : Option Bound :=
  xs.spans.getLast?.map Span.hi

/-- A set all of whose bounds are plain integers. -/
def plain (xs : Runs) : SpelledRuns :=
  ⟨xs.map Span.plain⟩

/-- The empty set. -/
def empty : SpelledRuns :=
  ⟨[]⟩

/-- Adds an interval. -/
def insert (x : Span) (xs : SpelledRuns) : SpelledRuns :=
  ⟨x.insert xs.spans⟩

/-- Adds intervals in the order given. -/
def insertAll (xs : SpelledRuns) (rs : List Span) : SpelledRuns :=
  rs.foldl (fun acc r => insert r acc) xs

/-- The set of the integers of some intervals, which may overlap and come in any order. -/
def ofSpans (rs : List Span) : SpelledRuns :=
  insertAll empty rs

/-- Removes an integer. -/
def erase (v : Int) (xs : SpelledRuns) : SpelledRuns :=
  ⟨Span.erase v xs.spans⟩

/-- The integers that two sets have in common. -/
def inter (xs ys : SpelledRuns) : SpelledRuns :=
  ofSpans (Span.overlap.run xs.spans ys.spans)

/-- The integers of the left set that are not in the right one. -/
def diff (xs ys : SpelledRuns) : SpelledRuns :=
  ⟨Span.trim.run xs.spans ys.spans⟩

section Runs

variable (xs ys : SpelledRuns)

@[simp] theorem map_interval_spans : xs.spans.map Span.interval = xs.runs :=
  rfl

@[simp] theorem runs_plain (xs : Runs) : (plain xs).runs = xs := by
  simp [runs, plain, Function.comp_def]

@[simp] theorem runs_empty : empty.runs = [] :=
  rfl

@[simp] theorem runs_insert (x : Span) : (xs.insert x).runs = xs.runs.insert x.interval :=
  x.map_interval_insert xs.spans

@[simp] theorem runs_insertAll (rs : List Span) :
    (xs.insertAll rs).runs = xs.runs.insertAll (rs.map Span.interval) := by
  induction rs generalizing xs with
  | nil => rfl
  | cons r rs ih =>
    rw [insertAll, List.foldl_cons, List.map_cons, Runs.insertAll, List.foldl_cons, ← runs_insert]
    exact ih (xs.insert r)

@[simp] theorem runs_ofSpans (rs : List Span) :
    (ofSpans rs).runs = Runs.ofIntervals (rs.map Span.interval) :=
  runs_insertAll empty rs

@[simp] theorem runs_erase (v : Int) : (xs.erase v).runs = xs.runs.erase v :=
  Span.map_interval_erase v xs.spans

@[simp] theorem runs_inter : (xs.inter ys).runs = xs.runs.inter ys.runs := by
  rw [inter, runs_ofSpans, Span.map_interval_overlap_run]
  rfl

@[simp] theorem runs_diff : (xs.diff ys).runs = xs.runs.diff ys.runs :=
  Span.map_interval_trim_run xs.spans ys.spans

theorem map_toInt_least? : xs.least?.map Bound.toInt = xs.runs.least? := by
  rw [Runs.least?, runs, List.head?_map, Option.map_map, least?, Option.map_map]
  rfl

theorem map_toInt_greatest? : xs.greatest?.map Bound.toInt = xs.runs.greatest? := by
  rw [Runs.greatest?, runs, List.getLast?_map, Option.map_map, greatest?, Option.map_map]
  rfl

end Runs

end SpelledRuns

end SymbolSets
