import Mathlib.Tactic.TFAE
import SymbolSets.Proofs.Session.Canonical

/-!
# Equality of sets is equality of their elements

Sets kept by runs are compared run by run, however their bounds are written. After every session all
of them are in canonical form, which is unique, so they are equal if and only if they hold the same
integers, however each of them came about. Their digests are computed from the runs, so equal sets
have equal digests.

## Main definitions

* `Session.build`: the steps that make a set by adding ranges to an empty one.

## Main results

* `Store.areEqual_runs_iff`, `Store.areEqual_intervals_iff`: what is compared.
* `Session.run_build`: the set that adding ranges leads to.
* `Session.equal_tfae`: four ways to say that two sets are equal.
-/

namespace SymbolSets

theorem Runs.eq_iff_holds {xs ys : Runs} (hxs : xs.Canonical) (hys : ys.Canonical) :
    xs = ys ↔ ∀ v, xs.Holds v ↔ ys.Holds v := by
  constructor
  · rintro rfl v
    exact Iff.rfl
  · exact hxs.ext hys

/-- The order of the ranges does not matter. -/
theorem Runs.ofIntervals_eq_of_perm {rs rs' : List Interval} (h : rs.Perm rs') :
    Runs.ofIntervals rs = Runs.ofIntervals rs' := by
  refine (canonical_ofIntervals rs).ext (canonical_ofIntervals rs') fun v => ?_
  rw [holds_ofIntervals, holds_ofIntervals]
  constructor
  · rintro ⟨x, hx, hv⟩
    exact ⟨x, h.mem_iff.1 hx, hv⟩
  · rintro ⟨x, hx, hv⟩
    exact ⟨x, h.mem_iff.2 hx, hv⟩

theorem Interval.order_eq_iff {x y : Interval} : x.order y = .eq ↔ x = y := by
  rw [order, Ordering.then_eq_eq, Std.LawfulEqCmp.compare_eq_iff_eq,
    Std.LawfulEqCmp.compare_eq_iff_eq]
  cases x
  cases y
  rw [Interval.mk.injEq]

instance : Std.LawfulEqCmp Interval.order where
  compare_self := Interval.order_eq_iff.2 rfl
  eq_of_compare := Interval.order_eq_iff.1

namespace Store

/-- Sets kept by runs are compared by their runs. -/
theorem areEqual_runs_iff {σ : Store} {i j : Nat} :
    σ.areEqual (.runs i) (.runs j) = true ↔ σ.runsAt i = σ.runsAt j := by
  have hwithin : σ.areEqual (.runs i) (.runs j) = (i == j || σ.runsAt i == σ.runsAt j) := by
    rw [areEqual]
    cases σ.lists.size with
    | zero => rfl
    | succ depth => rfl
  rw [hwithin, Bool.or_eq_true, beq_iff_eq, beq_iff_eq]
  constructor
  · rintro (rfl | h)
    · rfl
    · exact h
  · exact .inr

/-- Rows of intervals are compared by the intervals, however these are written. -/
theorem areEqual_intervals_iff {σ : Store} {xs ys : List Span} :
    σ.areEqual (.intervals xs) (.intervals ys) = true ↔
      xs.map Span.interval = ys.map Span.interval := by
  have hwithin : σ.areEqual (.intervals xs) (.intervals ys) =
      (List.compareLex Interval.order (xs.map Span.interval) (ys.map Span.interval) == .eq) := by
    rw [areEqual]
    cases σ.lists.size with
    | zero => rfl
    | succ depth => rfl
  rw [hwithin, beq_iff_eq, Std.LawfulEqCmp.compare_eq_iff_eq]

/-! ### Registers -/

theorem value?_bind_self (σ : Store) (name : String) (v : Value) :
    (σ.bind name v).value? name = some v := by
  rw [bind, value?]
  induction σ.registers with
  | nil => simp [bindIn]
  | cons r rs ih =>
    rw [bindIn]
    split_ifs with hname
    · simp
    · rw [List.lookup_cons, beq_false_of_ne (Ne.symm hname)]
      exact ih

theorem value?_bind_of_ne (σ : Store) {name other : String} (h : other ≠ name) (v : Value) :
    (σ.bind name v).value? other = σ.value? other := by
  rw [bind, value?, value?]
  induction σ.registers with
  | nil => simp [bindIn, h]
  | cons r rs ih =>
    rw [bindIn]
    split_ifs with hname
    · have hne : other ≠ r.1 := fun heq => h (heq.trans hname)
      rw [List.lookup_cons, List.lookup_cons, beq_false_of_ne h, beq_false_of_ne hne]
    · rw [List.lookup_cons, List.lookup_cons, ih]

end Store

/-! ### Sets built from ranges -/

/-- A bound as an operand. -/
def Operand.ofBound : Bound → Operand
  | .int n => .int n
  | .truth b => .bool b

/-- Adds the range with the given bounds to the set that a register names. -/
def Step.addRange (name : String) (bounds : Bound × Bound) : Step :=
  ⟨.send name (.mutate .add), [.ofBound bounds.1, .ofBound bounds.2], none⟩

/-- Makes a set by adding ranges to an empty one, which is kept in a register. -/
def Session.build (name : String) (ranges : List (Bound × Bound)) : List Step :=
  ⟨.make .copy, [], some name⟩ :: ranges.map (Step.addRange name)

namespace Store

/-- A new set, named by a register. -/
def addNamed (σ : Store) (name : String) (xs : SpelledRuns) : Store :=
  (σ.addRuns xs).2.bind name (.runs σ.runs.size)

theorem getElem?_addNamed (σ : Store) (name : String) (xs : SpelledRuns) :
    (σ.addNamed name xs).runs[σ.runs.size]? = some ⟨xs, .bool false⟩ := by
  simp [addNamed, addRuns, bind]

theorem runsAt_addNamed (σ : Store) (name : String) (xs : SpelledRuns) :
    (σ.addNamed name xs).runsAt σ.runs.size = xs.runs :=
  runsAt_eq_of_getElem? (σ.getElem?_addNamed name xs)

theorem value?_addNamed (σ : Store) (name : String) (xs : SpelledRuns) :
    (σ.addNamed name xs).value? name = some (.runs σ.runs.size) :=
  value?_bind_self _ _ _

theorem value?_addNamed_of_ne (σ : Store) {name other : String} (h : other ≠ name)
    (xs : SpelledRuns) : (σ.addNamed name xs).value? other = σ.value? other :=
  value?_bind_of_ne _ h _

/-- A set stays as it is when another is stored. -/
theorem runsAt_addNamed_of_lt (σ : Store) (name : String) (xs : SpelledRuns) {place : Nat}
    (h : place < σ.runs.size) : (σ.addNamed name xs).runsAt place = σ.runsAt place :=
  (extends_addRuns σ xs).runsAt_eq h

theorem size_addNamed (σ : Store) (name : String) (xs : SpelledRuns) :
    (σ.addNamed name xs).runs.size = σ.runs.size + 1 := by
  simp [addNamed, addRuns, bind]

theorem setRuns_addNamed (σ : Store) (name : String) (xs ys : SpelledRuns) :
    (σ.addNamed name xs).setRuns σ.runs.size ⟨ys, .bool false⟩ = σ.addNamed name ys := by
  have hsize : σ.runs.size < (σ.runs.push ⟨xs, .bool false⟩).size := by simp
  simp only [addNamed, addRuns, bind, setRuns]
  rw [Array.setIfInBounds, dif_pos hsize, Array.set_push, dif_neg (Nat.lt_irrefl _)]

end Store

theorem Operand.value?_ofBound (b : Bound) (σ : Store) :
    (ofBound b).value? σ = .ok (.ofBound b, σ) := by
  cases b <;> rfl

/-- Adding a range to a set that is not frozen. -/
theorem Mutation.applyRuns_add {σ : Store} {isFrozen : StoredRuns → Bool} {o : StoredRuns}
    (h : isFrozen o = false) (a b : Bound) :
    Mutation.applyRuns .add σ isFrozen o [.ofBound a, .ofBound b] =
      .done (o.withRuns (o.insert (.of a b))) := by
  have hnothing : Value.ofBound b ≠ .nothing := by
    cases b <;> nofun
  rw [applyRuns]
  · simp only [Value.interval?, Value.bound?_ofBound, StoredRuns.addEach, Additions.next?, h]
    rfl
  · exact hnothing

theorem Step.run_addRange_addNamed (σ : Store) (name : String) (xs : SpelledRuns)
    (bounds : Bound × Bound) : ((Step.addRange name bounds).run (σ.addNamed name xs)).1 =
      σ.addNamed name (xs.insert (.of bounds.1 bounds.2)) := by
  have hoperands :
      Operand.values? [.ofBound bounds.1, .ofBound bounds.2] (σ.addNamed name xs) =
        .ok ([.ofBound bounds.1, .ofBound bounds.2], σ.addNamed name xs) := by
    simp only [Operand.values?, Operand.value?_ofBound]
    rfl
  have hfrozen : (σ.addNamed name xs).isFrozen σ.runs.size ⟨xs, .bool false⟩ = false := rfl
  simp only [run, perform, addRange, hoperands, act, σ.value?_addNamed, Request.perform,
    Mutation.perform, σ.getElem?_addNamed name xs, Mutation.applyRuns_add hfrozen]
  exact σ.setRuns_addNamed name xs (xs.insert (.of bounds.1 bounds.2))

theorem Session.run_map_addRange (σ : Store) (name : String) (xs : SpelledRuns)
    (ranges : List (Bound × Bound)) :
    run (σ.addNamed name xs) (ranges.map (Step.addRange name)) =
      σ.addNamed name (xs.insertAll (ranges.map fun bounds => .of bounds.1 bounds.2)) := by
  induction ranges generalizing xs with
  | nil => rfl
  | cons x ranges ih =>
    rw [List.map_cons, run_cons, Step.run_addRange_addNamed, ih]
    rfl

/-- **Adding ranges in turn makes the set of their integers.** -/
theorem Session.run_build (σ : Store) (name : String) (ranges : List (Bound × Bound)) :
    run σ (build name ranges) =
      σ.addNamed name (.ofSpans (ranges.map fun bounds => .of bounds.1 bounds.2)) := by
  rw [build, run_cons]
  exact run_map_addRange σ name .empty ranges

/-! ### Equality -/

namespace Query

variable {σ : Store} {i : Nat} {s : StoredRuns}

theorem answer_intervals (h : σ.runs[i]? = some s) :
    Query.answer σ .intervals (.runs i) [] = .ok (.value (.intervals s.spans)) := by
  simp only [answer, answerObject, h, answerRuns]

theorem answer_equal_iff {j : Nat} :
    Query.answer σ .equal (.runs i) [.runs j] = .ok (.value (.bool true)) ↔
      σ.runsAt i = σ.runsAt j := by
  rw [← Store.areEqual_runs_iff]
  simp only [answer, Except.ok.injEq, Product.value.injEq, Value.bool.injEq]

theorem answer_digest :
    Query.answer σ .digest (.runs i) [] = .ok (.value (.int (σ.runsAt i).digest)) :=
  rfl

end Query

namespace Session

variable {σ : Store} {i j : Nat} {s t : StoredRuns}

/-- The items of a set tell which integers it holds. -/
theorem items?_eq_iff {σ : Store} {i j : Nat} (hσ : σ.Canonical) :
    σ.items? (.runs i) = σ.items? (.runs j) ↔ σ.runsAt i = σ.runsAt j := by
  constructor
  · intro h
    have hmap : (σ.runsAt i).elements.map Value.int = (σ.runsAt j).elements.map Value.int :=
      Except.ok.inj h
    have helements : (σ.runsAt i).elements = (σ.runsAt j).elements :=
      (List.map_inj_right fun _ _ => Value.int.inj).1 hmap
    refine (hσ.runsAt i).ext (hσ.runsAt j) fun v => ?_
    rw [← Runs.mem_elements, ← Runs.mem_elements, helements]
  · intro h
    rw [Store.items?, Store.items?, h]

/-- Two sets that are built by the same ranges in different orders hold the same runs. -/
theorem runsAt_run_build (σ : Store) {a b : String} (hab : a ≠ b)
    {ranges ranges' : List (Bound × Bound)} (h : ranges.Perm ranges')
    {τ : Store} (hτ : τ = run σ (build a ranges ++ build b ranges')) :
    ∃ i j, τ.value? a = some (.runs i) ∧ τ.value? b = some (.runs j) ∧ τ.runsAt i = τ.runsAt j := by
  let xs := SpelledRuns.ofSpans (ranges.map fun bounds => .of bounds.1 bounds.2)
  rw [run_append, run_build, run_build] at hτ
  subst hτ
  have hlt : σ.runs.size < (σ.addNamed a xs).runs.size := by
    rw [Store.size_addNamed]
    exact Nat.lt_succ_self _
  refine ⟨σ.runs.size, (σ.addNamed a xs).runs.size, ?_, ?_, ?_⟩
  · rw [Store.value?_addNamed_of_ne _ hab, Store.value?_addNamed]
  · exact Store.value?_addNamed _ _ _
  · rw [Store.runsAt_addNamed, Store.runsAt_addNamed_of_lt _ _ _ hlt, Store.runsAt_addNamed,
      SpelledRuns.runs_ofSpans, SpelledRuns.runs_ofSpans,
      Runs.ofIntervals_eq_of_perm ((h.map _).map _)]

theorem result_equal {a b : String} (ha : σ.value? a = some (.runs i))
    (hb : σ.value? b = some (.runs j)) (h : σ.runsAt i = σ.runsAt j) :
    (Step.run ⟨.send a (.query .equal), [.register b], none⟩ σ).2.result = .ok (.bool true) := by
  have hoperands : Operand.values? [.register b] σ = .ok ([.runs j], σ) := by
    simp only [Operand.values?, Operand.value?, hb]
    rfl
  simp only [Step.run, Step.perform, hoperands, Step.act, ha, Request.perform,
    Query.answer_equal_iff.2 h]
  rfl

theorem result_digest {a : String} (ha : σ.value? a = some (.runs i)) :
    (Step.run ⟨.send a (.query .digest), [], none⟩ σ).2.result =
      .ok (.int (σ.runsAt i).digest) := by
  have hoperands : Operand.values? [] σ = .ok ([], σ) := rfl
  simp only [Step.run, Step.perform, hoperands, Step.act, ha, Request.perform, Query.answer_digest]
  rfl

/-- **Equality is equality of elements.** For two sets kept by runs it is the same that they are
equal, that they hold the same integers, that their runs are equal, and that they list the same
items; and then their digests are the same. Sets built by the same ranges in any order are equal. -/
theorem equal_tfae (hσ : σ.Reachable) (hs : σ.runs[i]? = some s) (ht : σ.runs[j]? = some t) :
    [Query.answer σ .equal (.runs i) [.runs j] = .ok (.value (.bool true)),
      ∀ v, s.runs.Holds v ↔ t.runs.Holds v,
      ∃ v w, Query.answer σ .intervals (.runs i) [] = .ok (.value v) ∧
        Query.answer σ .intervals (.runs j) [] = .ok (.value w) ∧ σ.areEqual v w = true,
      σ.items? (.runs i) = σ.items? (.runs j)].TFAE ∧
    (Query.answer σ .equal (.runs i) [.runs j] = .ok (.value (.bool true)) →
      Query.answer σ .digest (.runs i) [] = Query.answer σ .digest (.runs j) []) ∧
    ∀ {a b : String} {ranges ranges' : List (Bound × Bound)}, a ≠ b → ranges.Perm ranges' →
      let τ := run σ (build a ranges ++ build b ranges')
      (Step.run ⟨.send a (.query .equal), [.register b], none⟩ τ).2.result = .ok (.bool true) ∧
        (Step.run ⟨.send a (.query .digest), [], none⟩ τ).2.result =
          (Step.run ⟨.send b (.query .digest), [], none⟩ τ).2.result := by
  have hs' : σ.runsAt i = s.runs := Store.runsAt_eq_of_getElem? hs
  have ht' : σ.runsAt j = t.runs := Store.runsAt_eq_of_getElem? ht
  refine ⟨?_, ?_, ?_⟩
  · tfae_have 1 ↔ 3 := by
      rw [Query.answer_equal_iff, hs', ht', ← s.map_interval_spans, ← t.map_interval_spans,
        ← Store.areEqual_intervals_iff, Query.answer_intervals hs, Query.answer_intervals ht]
      constructor
      · exact fun h => ⟨_, _, rfl, rfl, h⟩
      · rintro ⟨_, _, ⟨⟩, ⟨⟩, h⟩
        exact h
    tfae_have 1 ↔ 2 := by
      rw [Query.answer_equal_iff, ← hs', ← ht']
      exact Runs.eq_iff_holds (hσ.canonical.runsAt i) (hσ.canonical.runsAt j)
    tfae_have 1 ↔ 4 := by
      rw [Query.answer_equal_iff, items?_eq_iff hσ.canonical]
    tfae_finish
  · intro h
    rw [Query.answer_digest, Query.answer_digest, Query.answer_equal_iff.1 h]
  · intro a b ranges ranges' hab hperm τ
    obtain ⟨k, l, ha, hb, heq⟩ := runsAt_run_build σ hab hperm (rfl : τ = _)
    rw [result_digest ha, result_digest hb, heq]
    exact ⟨result_equal ha hb heq, rfl⟩

/-- One set is built by two ranges, the other one by a progression before it is frozen. One of the
ranges that are added in both orders starts at a truth value. -/
theorem equal_tfae_frozen :
    let σ := run .initial
      [⟨.make .range, [.int 1, .int 3], some "s"⟩,
       ⟨.send "s" (.mutate .add), [.int 4, .int 9], none⟩,
       ⟨.make .copy, [.progression 1 10 1], some "t"⟩,
       ⟨.send "t" (.mutate .freeze), [], none⟩]
    (∃ s t, σ.runs[2]? = some s ∧ σ.runs[3]? = some t ∧ ∀ v, s.runs.Holds v ↔ t.runs.Holds v) ∧
      (Step.run ⟨.send "x" (.query .equal), [.register "y"], none⟩
        (run σ (build "x" [(.int 0, .int 6), (.truth false, .int 4)] ++
          build "y" [(.truth false, .int 4), (.int 0, .int 6)]))).2.result = .ok (.bool true) := by
  intro σ
  have hi : 2 < σ.runs.size := by decide +kernel +revert
  have hj : 3 < σ.runs.size := by decide +kernel +revert
  have hruns : σ.runsAt 2 = σ.runsAt 3 := by decide +kernel +revert
  have hreachable : σ.Reachable := ⟨_, rfl⟩
  have hne : "x" ≠ "y" := by decide
  have hperm : [(Bound.int 0, Bound.int 6), (.truth false, .int 4)].Perm
      [(.truth false, .int 4), (.int 0, .int 6)] := List.Perm.swap _ _ []
  have h := equal_tfae hreachable (Array.getElem?_eq_getElem hi) (Array.getElem?_eq_getElem hj)
  have hholds := (h.1.out 0 1).1 (Query.answer_equal_iff.2 hruns)
  have hbuild := (h.2.2 hne hperm).1
  exact ⟨⟨_, _, Array.getElem?_eq_getElem hi, Array.getElem?_eq_getElem hj, hholds⟩, hbuild⟩

end Session

end SymbolSets
