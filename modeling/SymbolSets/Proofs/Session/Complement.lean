import Mathlib.Tactic.Tauto
import SymbolSets.Proofs.Session.Permanence
import SymbolSets.Proofs.Session.Walks

/-!
# Complements

A set is complemented in a universe: the integers of a range, those of a collection, or all
characters if no universe is given. The universe is taken as a set, and the set is subtracted from
it. A complement of a complement, in the same universe, is what the set has in common with the
universe.

The set of all characters is one of the predefined sets and is read like any other set. It is frozen
and holds all characters, unless a list or a set is made its mark and then emptied.

## Main definitions

* `Universe`, `Universe.IsNamedBy`: the universes, and the operands that name them.
* `Universe.Holds`: the integers of a universe.
* `Universe.restrict`: what a set has in common with a universe.
* `Store.HasComplemented`: what comes of a complement.

## Main results

* `Universe.exists_universe?`: a universe is taken as a set of its integers.
* `Universe.exists_hasComplemented`: complements in any universe.
* `Session.runsAt_characterPlace`: when the set of all characters holds them all.
* `Session.complement_twice`: complements of complements.
-/

namespace SymbolSets

/-! ### Universes -/

/-- What a set can be complemented in. -/
inductive Universe
  | characters
  | range (lo hi : Int)
  | collection (u : Value)

namespace Universe

/-- The operands that name a universe. A truth value can stand for a bound. What follows a
collection is not looked at, nor is what follows nothing. -/
inductive IsNamedBy : Universe → List Value → Prop
  | none : IsNamedBy characters []
  | nothing : IsNamedBy characters [.nothing]
  | nothingBut (v : Value) : IsNamedBy characters [.nothing, v]
  | bounds {v w : Value} {lo hi : Int} (hv : v.int? = some lo) (hw : w.int? = some hi) :
      IsNamedBy (range lo hi) [v, w]
  | collection (u : Value) : IsNamedBy (collection u) [u]
  | collectionBut (u v : Value) : IsNamedBy (collection u) [u, v]

/-- A collection has to be one of integers. -/
def IsAllowed (σ : Store) : Universe → Prop
  | characters | range _ _ => True
  | collection u => (∃ ns, σ.Lists u ns) ∧ σ.Knows u

/-- The integer `n` is in the universe. -/
def Holds (σ : Store) : Universe → Int → Prop
  | characters, n => (σ.runsAt Store.characterPlace).Holds n
  | range lo hi, n => lo ≤ n ∧ n ≤ hi
  | collection u, n => σ.Has u n

/-- The universe as a collection. A range is made a set. -/
def collect : Universe → Store → Except Fault (Value × Store)
  | characters, σ => .ok (.runs Store.characterPlace, σ)
  | range lo hi, σ => (Maker.make σ .range [.int lo, .int hi]).map fun c => σ.enter (.contents c)
  | collection u, σ => .ok (u, σ)

/-- The intersection of the set at a place with the universe. -/
def restrict (U : Universe) (σ : Store) (place : Nat) : Except Fault (Value × Store) := do
  let (u, σ) ← U.collect σ
  let (σ, report) := Request.perform (.derive .inter) σ (.runs place) [u]
  return (← report.result, σ)

variable {U : Universe} {σ τ : Store} {operands : List Value} {n : Int} {i place : Nat}

theorem IsAllowed.extends (hU : U.IsAllowed σ) (h : σ.Extends τ) : U.IsAllowed τ := by
  cases U with
  | characters => trivial
  | range lo hi => trivial
  | collection u =>
    obtain ⟨⟨ns, hns⟩, hu⟩ := hU
    exact ⟨⟨ns, hns.extends h hu⟩, h.knows hu⟩

/-- New objects do not change a universe. -/
theorem holds_of_extends (h : σ.Extends τ) (hplace : σ.Knows (.runs Store.characterPlace))
    (hU : U.IsAllowed σ) : U.Holds τ n ↔ U.Holds σ n := by
  cases U with
  | characters => rw [Holds, Holds, h.runsAt_eq hplace]
  | range lo hi => exact Iff.rfl
  | collection u => exact h.has_iff hU.2

/-- What follows a collection of integers is not looked at. -/
theorem universe?_collectionBut {u : Value} {ns : List Int} (h : σ.Lists u ns) (v : Value) :
    Contents.universe? σ [u, v] = σ.runs? u := by
  have hu : u ≠ .nothing := by
    rintro rfl
    obtain ⟨items, hitems, -⟩ := h
    cases hitems
  by_cases hv : v = .nothing
  · subst hv
    simp only [Contents.universe?, h.int?_eq_none]
  · simp only [Contents.universe?, h.int?_eq_none]

/-- Two bounds name the set of the integers between them. -/
theorem universe?_bounds {v w : Value} {lo hi : Int} (hv : v.int? = some lo)
    (hw : w.int? = some hi) :
    ∃ ys, Contents.universe? σ [v, w] = .ok ys ∧ ys.runs = Runs.ofIntervals [⟨lo, hi⟩] := by
  have hvNothing : v ≠ .nothing := by
    rintro rfl
    cases hv
  have hwNothing : w ≠ .nothing := by
    rintro rfl
    cases hw
  obtain ⟨x, hx, hbounds⟩ := Value.exists_interval?_of_int? hv hw
  refine ⟨.ofSpans [x], ?_, ?_⟩
  · simp only [Contents.universe?, hv, hx]
    rfl
  · rw [SpelledRuns.runs_ofSpans, List.map_singleton, hbounds]

theorem holds_ofIntervals_singleton {x : Interval} :
    (Runs.ofIntervals [x]).Holds n ↔ x.lo ≤ n ∧ n ≤ x.hi := by
  rw [Runs.holds_ofIntervals, Runs.holds_cons, or_iff_left Runs.holds_nil, Interval.mem_def]

/-- **A universe is taken as a set of its integers.** -/
theorem exists_universe? (hσ : σ.Canonical) (hnamed : U.IsNamedBy operands)
    (hU : U.IsAllowed σ) :
    ∃ ys, Contents.universe? σ operands = .ok ys ∧ ys.runs.Canonical ∧
      ∀ n, ys.runs.Holds n ↔ U.Holds σ n := by
  have hcharacters : (σ.spelledAt Store.characterPlace).runs.Canonical := hσ.spelledAt _
  have hholds (n : Int) :
      (σ.spelledAt Store.characterPlace).runs.Holds n ↔ characters.Holds σ n := by
    rw [σ.runs_spelledAt, Holds]
  cases hnamed with
  | none => exact ⟨_, rfl, hcharacters, hholds⟩
  | nothing => exact ⟨_, rfl, hcharacters, hholds⟩
  | nothingBut v => exact ⟨_, rfl, hcharacters, hholds⟩
  | bounds hv hw =>
    obtain ⟨ys, hys, hruns⟩ := universe?_bounds hv hw
    refine ⟨ys, hys, ?_, fun n => ?_⟩
    · rw [hruns]
      exact Runs.canonical_ofIntervals _
    · rw [hruns]
      exact holds_ofIntervals_singleton
  | collection u =>
    obtain ⟨⟨ns, hns⟩, -⟩ := hU
    obtain ⟨ys, hys, hcanonical, hholds⟩ := hns.exists_runs? hσ
    exact ⟨ys, hns.universe?_eq.trans hys, hcanonical, fun n => (hholds n).trans hns.has_iff.symm⟩
  | collectionBut u v =>
    obtain ⟨⟨ns, hns⟩, -⟩ := hU
    obtain ⟨ys, hys, hcanonical, hholds⟩ := hns.exists_runs? hσ
    exact ⟨ys, (universe?_collectionBut hns v).trans hys, hcanonical,
      fun n => (hholds n).trans hns.has_iff.symm⟩

/-- A universe is a collection of its integers, which changes nothing that is stored. -/
theorem exists_collect (hσ : σ.Canonical) (hU : U.IsAllowed σ) :
    ∃ u τ ns, U.collect σ = .ok (u, τ) ∧ σ.Extends τ ∧ τ.Canonical ∧ τ.Lists u ns ∧
      ∀ n, n ∈ ns ↔ U.Holds σ n := by
  cases U with
  | characters =>
    exact ⟨_, σ, _, rfl, .refl σ, hσ, σ.lists_runs _, fun n => Runs.mem_elements⟩
  | range lo hi =>
    let xs : SpelledRuns := .ofSpans [.of (.int lo) (.int hi)]
    have hruns : xs.runs = Runs.ofIntervals [⟨lo, hi⟩] := by
      rw [SpelledRuns.runs_ofSpans, List.map_singleton, Span.interval_of]
      rfl
    refine ⟨.runs σ.runs.size, (σ.addRuns xs).2, _, rfl, σ.extends_addRuns xs,
      hσ.addRuns (SpelledRuns.canonical_ofSpans _), Store.lists_runs _ _, fun n => ?_⟩
    rw [Runs.mem_elements, Store.runsAt_addRuns, hruns]
    exact holds_ofIntervals_singleton
  | collection u =>
    obtain ⟨⟨ns, hns⟩, -⟩ := hU
    exact ⟨u, σ, ns, rfl, .refl σ, hσ, hns, fun n => hns.has_iff.symm⟩

end Universe

/-! ### Complements -/

variable {U : Universe} {σ τ υ : Store} {operands : List Value} {i place : Nat} {s : StoredRuns}

/-- What comes of the complement of the set at `i`: the set at `place` in the store `τ`. -/
structure Store.HasComplemented (U : Universe) (operands : List Value) (σ : Store) (i place : Nat)
    (τ : Store) : Prop where
  answer : Request.perform (.derive .complement) σ (.runs i) operands =
    (τ, ⟨.ok (.runs place), []⟩)
  extension : σ.Extends τ
  new : ¬ σ.Knows (.runs place)
  holds : ∀ n, (τ.runsAt place).Holds n ↔ U.Holds σ n ∧ ¬ (σ.runsAt i).Holds n

namespace Universe

/-- **A complement in any universe** is a new set of what is in the universe and not in the set. -/
theorem exists_hasComplemented (hσ : σ.Canonical) (hnamed : U.IsNamedBy operands)
    (hU : U.IsAllowed σ) (i : Nat) :
    ∃ place τ, Store.HasComplemented U operands σ i place τ ∧ τ.Canonical ∧
      τ.Knows (.runs place) := by
  obtain ⟨ys, hys, hcanonical, hholds⟩ := exists_universe? hσ hnamed hU
  have hdiff : (ys.diff (σ.spelledAt i)).runs.Canonical :=
    SpelledRuns.canonical_diff hcanonical (hσ.spelledAt i)
  refine ⟨_, _, ⟨?_, σ.extends_addRuns (ys.diff (σ.spelledAt i)), Nat.lt_irrefl _, fun n => ?_⟩,
    hσ.addRuns hdiff, σ.knows_addRuns _⟩
  · simp only [Request.perform, Derivation.derive, Store.contents?, Derivation.ofContents,
      Contents.complement, hys]
    rfl
  · rw [Store.runsAt_addRuns, SpelledRuns.holds_diff hcanonical (hσ.spelledAt i), hholds,
      σ.runs_spelledAt]

/-- **The complement of a complement,** in the same universe, holds what the set has in common with
the universe. -/
theorem holds_twice {again : Nat} (hplace : σ.Knows (.runs Store.characterPlace))
    (hU : U.IsAllowed σ) (hfirst : Store.HasComplemented U operands σ i place τ)
    (hsecond : Store.HasComplemented U operands τ place again υ) {n : Int} :
    (υ.runsAt again).Holds n ↔ U.Holds σ n ∧ (σ.runsAt i).Holds n := by
  rw [hsecond.holds, hfirst.holds, holds_of_extends hfirst.extension hplace hU]
  tauto

/-- **The intersection of a stored set with a universe** is what both have in common. -/
theorem exists_restrict (hσ : σ.Canonical) (hU : U.IsAllowed σ) (hi : σ.Knows (.runs i)) :
    ∃ place τ, U.restrict σ i = .ok (.runs place, τ) ∧ σ.Extends τ ∧ τ.Canonical ∧
      ∀ n, (τ.runsAt place).Holds n ↔ U.Holds σ n ∧ (σ.runsAt i).Holds n := by
  obtain ⟨u, τ, ns, hcollect, hext, hτ, hns, hmem⟩ := exists_collect hσ hU
  obtain ⟨zs, hzs, hcanonical, hholds⟩ :=
    Contents.exists_combine_runs hτ .inter (hτ.spelledAt i) hns
  refine ⟨τ.runs.size, _, ?_, hext.trans (τ.extends_addRuns zs), hτ.addRuns hcanonical,
    fun n => ?_⟩
  · rw [restrict]
    refine bind_eq_ok_iff.2 ⟨_, hcollect, ?_⟩
    simp only [Request.perform, Derivation.derive, Store.contents?, Derivation.ofContents, hzs]
    rfl
  · rw [Store.runsAt_addRuns, hholds, τ.runs_spelledAt, hext.runsAt_eq hi, ← hmem]
    exact and_comm

end Universe

/-! ### All characters -/

/-- The set of all characters is stored in every session, whatever it holds. -/
theorem Store.Reachable.knows_characterPlace (hσ : σ.Reachable) :
    σ.Knows (.runs Store.characterPlace) := by
  obtain ⟨steps, rfl⟩ := hσ
  have hinitial : Store.initial.Knows (.runs Store.characterPlace) := Nat.one_lt_two
  exact Session.run_induction (P := fun σ => σ.Knows (.runs Store.characterPlace))
    (fun _ s hσ => s.knows_run hσ) hinitial steps

namespace Session

/-- **The set of all characters holds them all** in every session in which no step empties the list
or the set that is its mark. -/
theorem runsAt_characterPlace {steps : List Step}
    (h : KeepsMark Store.characterPlace .initial steps) :
    (run .initial steps).runsAt Store.characterPlace = [allCharacters] := by
  by_cases hsteps : steps = []
  · subst hsteps
    rfl
  · have hall : Store.initial.runs[Store.characterPlace]? = some Store.characterSet := rfl
    obtain ⟨after, hafter, heq⟩ := exists_mem_trace hsteps
    obtain ⟨p, hp, hruns, -⟩ := frozen_of_mem_trace Store.closed_initial hall rfl h hafter
    rw [← heq, Store.runsAt_eq_of_getElem? hp, hruns]
    rfl

/-! ### Complements of complements -/

/-- **Complements in all universes.** A complement is a new set of what is in the universe and not
in the set. The complement of that, in the same universe, is equal to the intersection of the set
with the universe, so it is equal to the set if and only if this lies in the universe. The
characters are the integers from `0` to `0x10FFFF` as long as the set that stands for them is
frozen. -/
theorem complement_twice {steps : List Step} (hσ : σ = run .initial steps)
    (hs : σ.runs[i]? = some s) (hnamed : U.IsNamedBy operands) (hU : U.IsAllowed σ) :
    (∃ place τ again υ common φ, Store.HasComplemented U operands σ i place τ ∧
      Store.HasComplemented U operands τ place again υ ∧
      U.restrict υ i = .ok (.runs common, φ) ∧
      Query.answer φ .equal (.runs again) [.runs common] = .ok (.value (.bool true)) ∧
      (Query.answer φ .equal (.runs again) [.runs i] = .ok (.value (.bool true)) ↔
        ∀ n, s.runs.Holds n → U.Holds σ n)) ∧
    (KeepsMark Store.characterPlace .initial steps →
      ∀ n, Universe.characters.Holds σ n ↔ 0 ≤ n ∧ n ≤ 0x10FFFF) := by
  have hreachable : σ.Reachable := ⟨steps, hσ⟩
  have hi : σ.Knows (.runs i) := (Array.getElem?_eq_some_iff.1 hs).1
  have hplace : σ.Knows (.runs Store.characterPlace) := hreachable.knows_characterPlace
  refine ⟨?_, fun hkeeps n => ?_⟩
  · obtain ⟨place, τ, hfirst, hτ, -⟩ :=
      Universe.exists_hasComplemented hreachable.canonical hnamed hU i
    have hUτ : U.IsAllowed τ := hU.extends hfirst.extension
    obtain ⟨again, υ, hsecond, hυ, hagain⟩ := Universe.exists_hasComplemented hτ hnamed hUτ place
    have hext : σ.Extends υ := hfirst.extension.trans hsecond.extension
    obtain ⟨common, φ, hrestrict, hφ, hφCanonical, hcommon⟩ :=
      Universe.exists_restrict hυ (hU.extends hext) (hext.knows hi)
    have hset : φ.runsAt i = s.runs := by
      rw [(hext.trans hφ).runsAt_eq hi, Store.runsAt_eq_of_getElem? hs]
    have hholdsAgain (n : Int) : (φ.runsAt again).Holds n ↔ U.Holds σ n ∧ s.runs.Holds n := by
      rw [hφ.runsAt_eq hagain, Universe.holds_twice hplace hU hfirst hsecond,
        Store.runsAt_eq_of_getElem? hs]
    have hholdsCommon (n : Int) : (φ.runsAt common).Holds n ↔ U.Holds σ n ∧ s.runs.Holds n := by
      rw [hcommon, Universe.holds_of_extends hext hplace hU, hext.runsAt_eq hi,
        Store.runsAt_eq_of_getElem? hs]
    refine ⟨place, τ, again, υ, common, φ, hfirst, hsecond, hrestrict, ?_, ?_⟩
    · rw [Query.answer_equal_iff,
        Runs.eq_iff_holds (hφCanonical.runsAt again) (hφCanonical.runsAt common)]
      exact fun n => (hholdsAgain n).trans (hholdsCommon n).symm
    · rw [Query.answer_equal_iff,
        Runs.eq_iff_holds (hφCanonical.runsAt again) (hφCanonical.runsAt i), hset]
      simp only [hholdsAgain, and_iff_right_iff_imp]
  · subst hσ
    rw [Universe.Holds, runsAt_characterPlace hkeeps, Runs.holds_cons, or_iff_left Runs.holds_nil]
    exact Interval.mem_def

/-- A set that reaches over the first character, in a range, in a list, and in all characters. -/
theorem complement_twice_reserved :
    let steps : List Step :=
      [⟨.make .range, [.int (-2), .int 3], some "s"⟩,
       ⟨.make .copy, [.list [.int 7, .bool true]], some "t"⟩]
    let σ := run .initial steps
    (∃ place τ again υ,
      Store.HasComplemented (.range 0 5) [.bool false, .int 5] σ 2 place τ ∧
      Store.HasComplemented (.range 0 5) [.bool false, .int 5] τ place again υ) ∧
    (∃ place τ, Store.HasComplemented (.collection (.list 0)) [.list 0] σ 2 place τ) ∧
    (∃ place τ, Store.HasComplemented .characters [] σ 2 place τ) ∧
    ∀ n, Universe.characters.Holds σ n ↔ 0 ≤ n ∧ n ≤ 0x10FFFF := by
  intro steps σ
  have hkeeps : KeepsMark Store.characterPlace .initial steps := by decide +kernel +revert
  have hsize : 2 < σ.runs.size := by decide +kernel +revert
  have hs : σ.runs[2]? = some σ.runs[2] := Array.getElem?_eq_getElem hsize
  have hbounds : (Universe.range 0 5).IsNamedBy [.bool false, .int 5] := .bounds rfl rfl
  have hlist : (Universe.collection (.list 0)).IsAllowed σ :=
    ⟨⟨[7, 1], [.int 7, .bool true], by rfl, by decide, by decide⟩, Nat.zero_lt_one⟩
  obtain ⟨⟨i, τ, j, υ, -, -, hfirst, hsecond, -⟩, -⟩ := complement_twice rfl hs hbounds trivial
  obtain ⟨⟨k, φ, -, -, -, -, hcollection, -⟩, -⟩ := complement_twice rfl hs (.collection _) hlist
  obtain ⟨⟨l, χ, -, -, -, -, hnone, -⟩, hcharacters⟩ := complement_twice rfl hs .none trivial
  exact ⟨⟨i, τ, j, υ, hfirst, hsecond⟩, ⟨k, φ, hcollection⟩, ⟨l, χ, hnone⟩, hcharacters hkeeps⟩

/-- The universe that is meant when none is named does not always hold all characters. A set of `1`
is made the mark of the set that stands for them; when it is cleared, `97` can be removed. -/
theorem not_complement_of_thawed_characters :
    ¬ ∀ {σ τ : Store} {i place : Nat} {s : StoredRuns}, σ.Reachable → σ.runs[i]? = some s →
      Request.perform (.derive .complement) σ (.runs i) [] = (τ, ⟨.ok (.runs place), []⟩) →
        ∀ n, (τ.runsAt place).Holds n ↔ (0 ≤ n ∧ n ≤ 0x10FFFF) ∧ ¬ s.runs.Holds n := by
  intro h
  let σ := run .initial
    [⟨.make .range, [.int 1], some "t"⟩,
     ⟨.send "COMPLETE_CHAR_SET" (.mutate .mark), [.register "t"], none⟩,
     ⟨.send "t" (.mutate .clear), [], none⟩,
     ⟨.send "COMPLETE_CHAR_SET" (.mutate .remove), [.int 97], none⟩,
     ⟨.make .copy, [], some "s"⟩]
  have hmissing : ¬ (σ.runsAt Store.characterPlace).Holds 97 := by decide +kernel +revert
  have hsize : 3 < σ.runs.size := by decide +kernel +revert
  have hempty : ¬ σ.runs[3].runs.Holds 97 := by decide +kernel +revert
  have hσ : σ.Reachable := ⟨_, rfl⟩
  obtain ⟨place, τ, hcomplemented, -, -⟩ :=
    Universe.exists_hasComplemented hσ.canonical .none trivial 3
  have hholds := h hσ (Array.getElem?_eq_getElem hsize) hcomplemented.answer 97
  exact hmissing ((hcomplemented.holds 97).1 (hholds.2 ⟨by decide, hempty⟩)).1

end Session

end SymbolSets
