import SymbolSets.Proofs.Runs.Length
import SymbolSets.Proofs.Session.Complement

/-!
# How many runs a set is kept by

A set is kept by as few runs as there can be, since between two of them an integer is missing. How
many there are after a request is bounded by how many there were before, and not by how many
integers are involved: a union or a difference has no more runs than its two operands together, and
a request that adds a range or removes a value makes at most one run more.

## Main definitions

* `Request.StoresAtMost`: a request is answered by a new set of few runs.

## Main results

* `Mutation.Outcome.length_le`, `Step.length_run_le`: additions and removals.
* `Store.fragmentation_bounds`: what requests for new sets and for changes come to, and covers.
-/

namespace SymbolSets

variable {σ : Store} {i j n : Nat} {s t : StoredRuns} {xs : SpelledRuns}

/-! ### New sets -/

/-- The request to `v` is answered by a new set, which has at most `n` runs. -/
def Request.StoresAtMost (r : Request) (σ : Store) (v : Value) (vs : List Value) (n : Nat) : Prop :=
  ∃ place τ, r.perform σ v vs = (τ, ⟨.ok (.runs place), []⟩) ∧ ¬ σ.Knows (.runs place) ∧
    (τ.runsAt place).length ≤ n

theorem Request.storesAtMost_of_perform {r : Request} {v : Value} {vs : List Value}
    (h : r.perform σ v vs = ((σ.addRuns xs).2, ⟨.ok (.runs σ.runs.size), []⟩))
    (hxs : xs.runs.length ≤ n) : r.StoresAtMost σ v vs n :=
  ⟨_, _, h, Nat.lt_irrefl _, by rwa [Store.runsAt_addRuns]⟩

/-- The union of two sets is what the operator answers, since it takes any set. -/
theorem Request.perform_union (σ : Store) (i j : Nat) :
    Request.perform (.derive .union) σ (.runs i) [.runs j] =
      ((σ.addRuns (Operator.apply .union (σ.spelledAt i) (σ.spelledAt j))).2,
        ⟨.ok (.runs σ.runs.size), []⟩) :=
  Request.perform_operator .union σ i j

/-- A complement in a range is what the set leaves of the range, which is one run or none. -/
theorem Request.perform_complement_bounds {v w : Value} {lo hi : Int} (hv : v.int? = some lo)
    (hw : w.int? = some hi) (σ : Store) (i : Nat) :
    ∃ ys : SpelledRuns, ys.runs = Runs.ofIntervals [⟨lo, hi⟩] ∧
      Request.perform (.derive .complement) σ (.runs i) [v, w] =
        ((σ.addRuns (ys.diff (σ.spelledAt i))).2, ⟨.ok (.runs σ.runs.size), []⟩) := by
  obtain ⟨ys, hys, hruns⟩ := Universe.universe?_bounds (σ := σ) hv hw
  refine ⟨ys, hruns, ?_⟩
  simp only [perform, Derivation.derive, Store.contents?, Derivation.ofContents,
    Contents.complement, hys]
  rfl

/-! ### Additions and removals -/

/-- As many runs are added as there are intervals, at most. -/
theorem StoredRuns.length_addEach_le {isFrozen : StoredRuns → Bool} (count : Nat) (o : StoredRuns)
    (added : Additions) :
    (o.addEach isFrozen count added).object.runs.length ≤ o.runs.length + count := by
  obtain ⟨xs, hcount, hobject⟩ := exists_object_addEach isFrozen count o added
  have hlength := SpelledRuns.length_insertAll_le o.toSpelledRuns xs
  rw [hobject]
  exact hlength.trans (Nat.add_le_add_left hcount _)

theorem StoredRuns.length_remove_le (o : StoredRuns) (v : Value) :
    (o.remove v).object.runs.length ≤ o.runs.length + 1 := by
  rcases o.remove_cases v with ⟨n, hremove⟩ | hremove | hremove | hremove
  · rw [hremove]
    exact SpelledRuns.length_erase_le n o.toSpelledRuns
  all_goals
    rw [hremove]
    exact Nat.le_succ _

/-- **An addition or a removal makes at most one run more,** whatever its operands are. -/
theorem Mutation.Outcome.length_le {m : Mutation} {isFrozen : StoredRuns → Bool} {o : StoredRuns}
    {vs : List Value} {effect : Effect StoredRuns} (h : m.Outcome σ isFrozen o vs effect)
    (hm : m = .add ∨ m = .remove) : effect.object.runs.length ≤ o.runs.length + 1 := by
  cases h with
  | refused | rejected => exact Nat.le_succ _
  | add => exact StoredRuns.length_addEach_le 1 o _
  | remove v => exact o.length_remove_le v
  | addAll | unlisted | clear | freeze | mark => simp at hm

/-- A step that adds to a set or removes from it leaves it with at most one run more, also if it
ends in a fault. -/
theorem Step.length_run_le {step : Step} {name : String} {m : Mutation}
    (hstep : step.action = .send name (.mutate m)) (hm : m = .add ∨ m = .remove)
    (hname : σ.value? name = some (.runs i)) (hs : σ.runs[i]? = some s) :
    ((step.run σ).1.runsAt i).length ≤ s.runs.length + 1 := by
  cases hvs : Operand.values? step.operands σ with
  | error fault =>
    have hrun : step.run σ = (σ, ⟨.error fault, []⟩) := by
      simp only [run, perform, hvs, Store.bindResult]
    rw [hrun, Store.runsAt_eq_of_getElem? hs]
    exact Nat.le_succ _
  | ok read =>
    obtain ⟨hafter, -⟩ := Step.stored_run_mutate hstep hvs hname hs
    rw [Store.runsAt_eq_of_getElem? hafter]
    exact (m.applyRuns_outcome _ _ s read.1).length_le hm

/-! ### All bounds -/

/-- **How many runs there can be.** The union of two stored sets has at most as many runs as both
have together, and so has their difference; their intersection has at least one less. The complement
of a set in a range has at most one run more than the set. So has the set after an addition to it or
a removal. No intervals that hold the integers of a set, in any order and with any overlaps, are
fewer than its runs, and empty ones among them do not count. -/
theorem Store.fragmentation_bounds (hσ : σ.Reachable) (hs : σ.runs[i]? = some s)
    (ht : σ.runs[j]? = some t) :
    Request.StoresAtMost (.derive .union) σ (.runs i) [.runs j]
        (s.runs.length + t.runs.length) ∧
      Request.StoresAtMost (.derive .inter) σ (.runs i) [.runs j]
        (s.runs.length + t.runs.length - 1) ∧
      Request.StoresAtMost (.derive .diff) σ (.runs i) [.runs j]
        (s.runs.length + t.runs.length) ∧
      (∀ {v w : Value} {lo hi : Int}, v.int? = some lo → w.int? = some hi →
        Request.StoresAtMost (.derive .complement) σ (.runs i) [v, w] (s.runs.length + 1)) ∧
      (∀ {step : Step} {name : String} {m : Mutation}, step.action = .send name (.mutate m) →
        m = .add ∨ m = .remove → σ.value? name = some (.runs i) →
          ((step.run σ).1.runsAt i).length ≤ s.runs.length + 1) ∧
      ∀ rs : List Interval, (∀ v, Runs.Holds rs v ↔ s.runs.Holds v) →
        s.runs.length ≤ rs.countP fun r => ¬ r.IsEmpty := by
  have hleft : σ.spelledAt i = s.toSpelledRuns := spelledAt_eq_of_getElem? hs
  have hright : σ.spelledAt j = t.toSpelledRuns := spelledAt_eq_of_getElem? ht
  refine ⟨?_, ?_, ?_, fun {v w lo hi} hv hw => ?_, fun hstep hm hname => ?_, fun rs hrs => ?_⟩
  · refine Request.storesAtMost_of_perform (Request.perform_union σ i j) ?_
    have hadded := SpelledRuns.length_insertAll_le s.toSpelledRuns t.spans
    rw [hleft, hright, ← t.map_interval_spans, List.length_map]
    exact hadded
  · refine Request.storesAtMost_of_perform (Request.perform_inter σ i j) ?_
    rw [hleft, hright, SpelledRuns.runs_inter]
    exact Runs.length_inter_le s.runs t.runs
  · refine Request.storesAtMost_of_perform (Request.perform_diff σ i j) ?_
    rw [hleft, hright, SpelledRuns.runs_diff]
    exact Runs.length_diff_le s.runs t.runs
  · obtain ⟨ys, hys, hperform⟩ := Request.perform_complement_bounds hv hw σ i
    refine Request.storesAtMost_of_perform hperform ?_
    have hrange : (Runs.ofIntervals [⟨lo, hi⟩]).length ≤ 1 := Runs.length_insert_le ⟨lo, hi⟩ []
    have hrest := Runs.length_diff_le (Runs.ofIntervals [⟨lo, hi⟩]) s.runs
    rw [hleft, SpelledRuns.runs_diff, hys]
    omega
  · exact Step.length_run_le hstep hm hname hs
  · exact (hσ.canonical s (Array.mem_of_getElem? hs)).length_le hrs

/-- Three integers cut a run into four, one more splits it in two, and the three are covered by no
fewer than three intervals, of which one here is empty and two overlap. -/
theorem Store.fragmentation_bounds_cut :
    let σ := Session.run .initial
      [⟨.make .range, [.int 0, .int 9], some "a"⟩,
       ⟨.make .copy, [.list [.int 2, .int 4, .int 6]], some "b"⟩]
    let removal : Step := ⟨.send "a" (.mutate .remove), [.int 5], none⟩
    Request.StoresAtMost (.derive .diff) σ (.runs 2) [.runs 3] (1 + 3) ∧
      (Runs.diff [⟨0, 9⟩] [⟨2, 2⟩, ⟨4, 4⟩, ⟨6, 6⟩]).length = 1 + 3 ∧
      Request.StoresAtMost (.derive .complement) σ (.runs 3) [.bool true, .int 9] (3 + 1) ∧
      ((removal.run σ).1.runsAt 2).length ≤ 1 + 1 ∧
      3 ≤ List.countP (fun r : Interval => ¬ r.IsEmpty)
        [⟨6, 6⟩, ⟨4, 4⟩, ⟨5, 1⟩, ⟨4, 4⟩, ⟨2, 2⟩] := by
  intro σ removal
  have ha : σ.runs[2]? = some ⟨.plain [⟨0, 9⟩], .bool false⟩ := by rfl
  have hb : σ.runs[3]? = some ⟨.plain [⟨2, 2⟩, ⟨4, 4⟩, ⟨6, 6⟩], .bool false⟩ := by rfl
  have hσ : σ.Reachable := ⟨_, rfl⟩
  obtain ⟨-, -, hdiff, -, hchange, -⟩ := fragmentation_bounds hσ ha hb
  obtain ⟨-, -, -, hcomplement, -, hcover⟩ := fragmentation_bounds hσ hb ha
  refine ⟨hdiff, by decide +kernel, hcomplement rfl rfl, hchange rfl (.inr rfl) rfl,
    hcover _ fun v => ?_⟩
  simp only [SpelledRuns.runs_plain, Runs.holds_cons, Runs.holds_nil, Interval.mem_def]
  grind

end SymbolSets
