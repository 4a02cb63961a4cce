import SymbolSets.Proofs.Runs.Spelled
import SymbolSets.Proofs.Session.Change
import SymbolSets.Proofs.Session.Making

/-!
# All stored sets are in canonical form

Sets come into a store as literals, as copies, as results of the algebra and of folds, and they are
changed by additions, removals and clearings, each of which writes the list of runs in a way of its
own. After every step of every session, whether it succeeds or ends in a fault, every set kept by
runs is in canonical form.

## Main definitions

* `Store.Canonical`: every set kept by runs is in canonical form.
* `Contents.Canonical`, `Product.Canonical`: the same for what is about to be stored.

## Main results

* `Contents.Made.canonical`: new sets are canonical.
* `Mutation.Outcome.canonical`: changed sets stay canonical.
* `Step.canonical_run`: what one step preserves.
* `Session.canonical_of_mem_trace`: every set after every step of every session.
-/

namespace SymbolSets

/-- Every set kept by runs is in canonical form. -/
def Store.Canonical (σ : Store) : Prop :=
  ∀ o ∈ σ.runs, o.runs.Canonical

/-- If the set is kept by runs, it is in canonical form. -/
def Contents.Canonical : Contents → Prop
  | .runs xs => xs.runs.Canonical
  | .enumerated _ => True

/-- If a set is new, it is in canonical form. -/
def Product.Canonical : Product → Prop
  | .contents c => c.Canonical
  | .value _ | .items _ => True

namespace Store

/-! ### Canonical stores -/

theorem canonical_initial : initial.Canonical := by
  intro o ho
  rcases Array.mem_toList_iff.2 ho with _ | ⟨_, _ | ⟨_, h⟩⟩
  · exact Runs.canonical_nil
  · exact Runs.canonical_singleton (by decide)
  · cases h

theorem Canonical.runsAt {σ : Store} (h : σ.Canonical) (place : Nat) :
    (σ.runsAt place).Canonical := by
  cases ho : σ.runs[place]? with
  | none =>
    rw [Store.runsAt, ho]
    exact Runs.canonical_nil
  | some o =>
    rw [runsAt_eq_of_getElem? ho]
    exact h o (Array.mem_of_getElem? ho)

theorem Canonical.spelledAt {σ : Store} (h : σ.Canonical) (place : Nat) :
    (σ.spelledAt place).runs.Canonical := by
  rw [runs_spelledAt]
  exact h.runsAt place

theorem Canonical.addRuns {σ : Store} (h : σ.Canonical) {xs : SpelledRuns}
    (hxs : xs.runs.Canonical) : (σ.addRuns xs).2.Canonical := by
  intro o ho
  rcases Array.mem_push.1 ho with ho | rfl
  · exact h o ho
  · exact hxs

theorem Canonical.setRuns {σ : Store} (h : σ.Canonical) {o : StoredRuns} (ho : o.runs.Canonical)
    (place : Nat) : (σ.setRuns place o).Canonical := by
  intro p hp
  rcases Array.mem_or_eq_of_mem_setIfInBounds hp with hp | rfl
  · exact h p hp
  · exact ho

theorem Canonical.enter {σ : Store} (h : σ.Canonical) {p : Product} (hp : p.Canonical) :
    (σ.enter p).2.Canonical := by
  cases p with
  | value v => exact h
  | items vs => exact h
  | contents c =>
    cases c with
    | runs xs => exact h.addRuns hp
    | enumerated es => exact h

theorem Canonical.bindResult {σ : Store} (h : σ.Canonical) (into : Option String)
    (result : Except Fault Value) : (σ.bindResult into result).Canonical := by
  cases result with
  | error fault => exact h
  | ok v =>
    cases into with
    | none => exact h
    | some name => exact h

/-- Sets that are written out as operands are canonical. -/
theorem keptByReading_canonical : KeptByReading Canonical where
  addRuns xs h := h.addRuns (SpelledRuns.canonical_ofSpans xs)
  addElements _ h := h
  addList _ h := h
  addFailing _ h := h
  addVocabulary _ h := h

theorem Canonical.contents? {σ : Store} (h : σ.Canonical) {v : Value} {c : Contents}
    (hc : σ.contents? v = some c) : c.Canonical := by
  rw [Store.contents?.eq_def] at hc
  split at hc
  · cases hc
    exact h.spelledAt _
  · cases hc
    trivial
  · cases hc

end Store

/-! ### New sets -/

variable {σ : Store}

/-- **New sets are canonical.** The induction is on the way in which they come about. -/
theorem Contents.Made.canonical (hσ : σ.Canonical) {c : Contents} (h : c.Made σ) :
    c.Canonical := by
  induction h with
  | stored h => exact hσ.contents? h
  | ofSpans xs => exact SpelledRuns.canonical_ofSpans xs
  | insertAll _ added ih => exact SpelledRuns.canonical_insertAll ih added
  | inter => exact SpelledRuns.canonical_inter _ _
  | diff _ _ ihxs ihys => exact SpelledRuns.canonical_diff ihxs ihys
  | ofList => trivial
  | applyElements => trivial

theorem Product.Made.canonical (hσ : σ.Canonical) {p : Product} (h : p.Made σ) :
    p.Canonical := by
  cases p with
  | value v => trivial
  | items vs => trivial
  | contents c => exact Contents.Made.canonical hσ h

/-! ### Changed sets -/

namespace StoredRuns

variable {isFrozen : StoredRuns → Bool}

theorem canonical_addEach {o : StoredRuns} (h : o.runs.Canonical) (count : Nat)
    (added : Additions) : (o.addEach isFrozen count added).object.runs.Canonical := by
  obtain ⟨xs, -, hobject⟩ := exists_object_addEach isFrozen count o added
  rw [hobject]
  exact SpelledRuns.canonical_insertAll h xs

theorem canonical_remove {o : StoredRuns} (h : o.runs.Canonical) (v : Value) :
    (o.remove v).object.runs.Canonical := by
  rcases o.remove_cases v with ⟨n, hremove⟩ | hremove | hremove | hremove
  · rw [hremove]
    exact SpelledRuns.canonical_erase h n
  all_goals
    rw [hremove]
    exact h

theorem canonical_assignMark {o : StoredRuns} (h : o.runs.Canonical) (v : Value) :
    (o.assignMark isFrozen v).object.runs.Canonical := by
  rw [assignMark]
  split
  · exact h
  · exact h
  · exact h

end StoredRuns

/-- **Changed sets stay canonical,** also when the change ends in a fault. -/
theorem Mutation.Outcome.canonical {m : Mutation} {isFrozen : StoredRuns → Bool} {o : StoredRuns}
    {vs : List Value} {effect : Effect StoredRuns} (h : m.Outcome σ isFrozen o vs effect)
    (ho : o.runs.Canonical) : effect.object.runs.Canonical := by
  cases h with
  | refused | rejected | unlisted => exact ho
  | add | addAll => exact StoredRuns.canonical_addEach ho _ _
  | remove v => exact StoredRuns.canonical_remove ho v
  | clear => exact Runs.canonical_nil
  | freeze | mark => exact StoredRuns.canonical_assignMark ho _

/-! ### Steps and sessions -/

theorem Action.Outcome.canonical (hσ : σ.Canonical) {vs : List Value} {action : Action}
    {τ : Store} {report : Report} (h : action.Outcome σ vs τ report) : τ.Canonical := by
  cases h with
  | refused => exact hσ
  | make hc => exact hσ.enter (p := .contents _) ((Maker.made_of_make hc).canonical hσ)
  | derive hv hp => exact hσ.enter ((Derivation.made_of_derive hp).canonical hσ)
  | answer hv hp => exact hσ.enter ((Query.made_of_answer hp).canonical hσ)
  | changeRuns hv ho =>
    have hcanonical := hσ _ (Array.mem_of_getElem? ho)
    exact hσ.setRuns ((Mutation.applyRuns_outcome _ _ _ _ _).canonical hcanonical) _
  | changeElements hv ho => exact hσ
  | changeList hv => exact hσ
  | markVocabulary hv hvs => exact hσ

/-- **What one step preserves.** A step takes canonical stores to canonical stores. -/
theorem Step.canonical_run (s : Step) (hσ : σ.Canonical) : (s.run σ).1.Canonical :=
  s.run_keeps Store.keptByReading_canonical (fun hσ hact => hact.canonical hσ)
    (fun into result hσ => hσ.bindResult into result) hσ

theorem Store.Reachable.canonical (h : σ.Reachable) : σ.Canonical := by
  obtain ⟨steps, rfl⟩ := h
  exact Session.run_induction (fun _ s hσ => s.canonical_run hσ) canonical_initial steps

/-- **All stored sets are in canonical form after every step of every session,** whatever the steps
are and whether they succeed or end in a fault: no stored run is empty, the runs ascend, and between
two of them at least one integer is missing. -/
theorem Session.canonical_of_mem_trace {steps : List Step} {after : Store × Report}
    (h : after ∈ Session.trace .initial steps) {o : StoredRuns} (ho : o ∈ after.1.runs) :
    o.runs.Canonical := by
  obtain ⟨first, -, hfirst⟩ := exists_run_of_mem_trace h
  have hreachable : after.1.Reachable := ⟨first, hfirst⟩
  exact hreachable.canonical o ho

/-- The third set after the last of four steps: ranges that touch are merged, a range is split by a
removal, and an addition ends in a fault after its first item. -/
theorem Session.canonical_of_mem_trace_split :
    let steps : List Step :=
      [⟨.make .range, [.int 1, .int 3], some "s"⟩,
       ⟨.send "s" (.mutate .add), [.int 4, .int 9], none⟩,
       ⟨.send "s" (.mutate .remove), [.int 5], none⟩,
       ⟨.send "s" (.mutate .addAll), [.list [.int 11, .nothing, .int 5]], none⟩]
    ∃ after ∈ Session.trace .initial steps, ∃ o ∈ after.1.runs,
      o.runs = [⟨1, 4⟩, ⟨6, 9⟩, ⟨11, 11⟩] ∧ o.runs.Canonical := by
  intro steps
  have hlast : 3 < (Session.trace .initial steps).length := by decide +kernel
  have hthird : 2 < (Session.trace .initial steps)[3].1.runs.size := by decide +kernel +revert
  exact ⟨_, List.getElem_mem hlast, _, Array.getElem_mem hthird, by decide +kernel +revert,
    Session.canonical_of_mem_trace (List.getElem_mem hlast) (Array.getElem_mem hthird)⟩

end SymbolSets
