import SymbolSets.Proofs.Session.Permanence

/-!
# What a fault leaves behind

A request that ends in a fault has not changed anything, for what is to be written is computed
before it is written. The exception is the addition of a collection, which writes each interval
before it looks at the next item. It ends in a fault on the way in two cases. The collection stops,
at an item that is no integer or because it breaks off itself; then the items before have been
added. Or the set is its own mark; then it was empty, and the first interval, which has been added,
freezes it.

## Main definitions

* `Step.BreaksAfter`: a step that adds a collection which stops.
* `Step.FreezesItself`: a step that adds a collection to an empty set that is its own mark.

## Main results

* `Action.Outcome.extends_of_error`: requests to others than sets.
* `Mutation.Outcome.object_of_fault`: requests to a set, but for additions of a collection.
* `StoredRuns.addEach_stops`: additions of a collection that stops.
* `Step.atomicity`: what every step leaves that ends in a fault.
-/

namespace SymbolSets

variable {σ τ υ : Store} {place : Nat} {o : StoredRuns}

/-! ### Writing back what was read -/

namespace Store

/-- An array keeps its items when one of them is written back to its place. -/
private theorem getElem?_setIfInBounds_self {α : Type} {xs : Array α} {i j : Nat} {x y : α}
    (hx : xs[j]? = some x) (h : xs[i]? = some y) : (xs.setIfInBounds j x)[i]? = some y := by
  by_cases hplace : j = i
  · subst hplace
    rw [Array.getElem?_setIfInBounds_self_of_lt (Array.getElem?_eq_some_iff.1 hx).1, ← hx, h]
  · rw [Array.getElem?_setIfInBounds_ne hplace, h]

theorem extends_setRuns_self (ho : σ.runs[place]? = some o) : σ.Extends (σ.setRuns place o) :=
  { Extends.refl σ with runs := fun h => getElem?_setIfInBounds_self ho h }

theorem extends_setList_self (place : Nat) : σ.Extends (σ.setList place (σ.listAt place)) := by
  cases hvs : σ.lists[place]? with
  | none =>
    have hsize : ¬ place < σ.lists.size := fun hlt => by simp [hlt] at hvs
    rw [setList, Array.setIfInBounds, dif_neg hsize]
    exact .refl σ
  | some vs =>
    rw [listAt, hvs]
    exact { Extends.refl σ with lists := fun h => getElem?_setIfInBounds_self hvs h }

end Store

/-! ### Requests that change nothing before a fault -/

section

variable {isFrozen : StoredRuns → Bool} {fault : Fault}

namespace StoredRuns

/-- A single interval is added or not. -/
theorem object_addEach_one_of_fault {added : Additions}
    (h : (o.addEach isFrozen 1 added).fault = some fault) :
    (o.addEach isFrozen 1 added).object = o := by
  rw [addEach] at h ⊢
  split
  · rfl
  · rfl
  · split_ifs with hfrozen
    · rfl
    · simp [*, addEach, Effect.done] at h

theorem object_remove_of_fault {v : Value} (h : (o.remove v).fault = some fault) :
    (o.remove v).object = o := by
  rcases o.remove_cases v with ⟨n, hremove⟩ | hremove | hremove | hremove
  · rw [hremove] at h
    cases h
  all_goals
    rw [hremove]
    rfl

theorem object_assignMark_of_fault {v : Value} (h : (o.assignMark isFrozen v).fault = some fault) :
    (o.assignMark isFrozen v).object = o := by
  rw [assignMark] at h ⊢
  split
  · rfl
  · simp [*] at h
  · simp [*, Effect.done] at h

end StoredRuns

namespace Mutation

/-- **A request that ends in a fault leaves the set as it is,** unless it adds a collection. -/
theorem Outcome.object_of_fault {m : Mutation} {vs : List Value} {effect : Effect StoredRuns}
    (h : m.Outcome σ isFrozen o vs effect) (hm : m ≠ .addAll) (hfault : effect.fault = some fault) :
    effect.object = o := by
  cases h with
  | refused | rejected => rfl
  | add => exact StoredRuns.object_addEach_one_of_fault hfault
  | addAll | unlisted => exact absurd rfl hm
  | remove => exact StoredRuns.object_remove_of_fault hfault
  | clear => cases hfault
  | freeze | mark => exact StoredRuns.object_assignMark_of_fault hfault

theorem object_applyList_of_fault {m : Mutation} {vs operands : List Value}
    (h : (m.applyList σ vs operands).fault = some fault) :
    (m.applyList σ vs operands).object = vs := by
  rw [applyList.eq_def] at h ⊢
  split
  · simp [Effect.done] at h
  · split_ifs with hamong
    · simp [hamong, Effect.done] at h
    · rfl
  · rfl
  · rfl
  · rfl

end Mutation

end

/-! ### Additions that stop -/

/-- **An addition stops at the first fault.** The items before it have been added. The induction is
on these. -/
theorem StoredRuns.addEach_stops {isFrozen : StoredRuns → Bool}
    (hfrozen : ∀ xs, isFrozen (o.withRuns xs) = false) {before : List Value}
    (hbefore : ∀ w ∈ before, w.int?.isSome) (fault : Fault) (after : List (Except Fault Span))
    {count : Nat} (hcount : before.length < count) :
    o.addEach isFrozen count (.items (before.map Value.single? ++ .error fault :: after)) =
      ⟨o.withRuns (o.insertAll ((before.filterMap Value.int?).map Span.single)), [],
        some fault⟩ := by
  induction before generalizing o count with
  | nil =>
    obtain ⟨count, rfl⟩ := Nat.exists_eq_add_one.2 hcount
    rfl
  | cons w before ih =>
    obtain ⟨count, rfl⟩ := Nat.exists_eq_add_one.2 (Nat.zero_lt_of_lt hcount)
    obtain ⟨n, hn⟩ := Option.isSome_iff_exists.1 (hbefore w List.mem_cons_self)
    have ho : ¬ isFrozen o = true := Bool.eq_false_iff.1 (hfrozen o.toSpelledRuns)
    have hnext : ∀ xs,
        isFrozen ((o.withRuns (o.insert (.single n))).withRuns xs) = false := hfrozen
    have hlength : before.length < count := Nat.lt_of_succ_lt_succ hcount
    rw [List.map_cons, List.cons_append, Value.single?_of_int? hn, addEach, Additions.next?]
    simp only [if_neg ho]
    rw [ih hnext (fun u hu => hbefore u (List.mem_cons_of_mem w hu)) hlength,
      List.filterMap_cons_some hn]
    rfl

/-! ### Sets that are their own mark -/

/-- The first interval that a collection adds holds an integer. -/
theorem Store.lo_le_hi_of_next? (hσ : σ.Canonical) {v : Value} {added rest : Additions}
    {x : Span} (hadded : σ.additions? v = .ok added) (hx : added.next? = some (.ok x, rest)) :
    x.interval.lo ≤ x.interval.hi := by
  rcases σ.additions?_cases v with ⟨i, rfl⟩ | ⟨p, rfl⟩ | hadditions
  · cases hadded
    cases hspans : (σ.spelledAt i).spans with
    | nil =>
      rw [hspans] at hx
      cases hx
    | cons y ys =>
      rw [hspans] at hx
      cases hx
      have hruns : σ.runsAt i = x.interval :: ys.map Span.interval := by
        rw [← Store.runs_spelledAt, ← SpelledRuns.map_interval_spans, hspans, List.map_cons]
      exact (hruns ▸ hσ.runsAt i).lo_le_hi List.mem_cons_self
  · cases hadded
    rw [Additions.next?] at hx
    split_ifs at hx with hcount
    cases hx
    exact Int.le_refl _
  · rw [hadded] at hadditions
    obtain ⟨⟨items, broken⟩, -, rfl⟩ := map_eq_ok_iff.1 hadditions.symm
    cases items with
    | nil => cases broken <;> cases hx
    | cons w items =>
      dsimp only at hx
      rw [List.map_cons, List.cons_append, Additions.next?, Option.some.injEq, Prod.mk.injEq] at hx
      exact Value.lo_le_hi_of_single? hx.1

/-! ### Additions of a collection -/

theorem Store.Accepts.isFrozen_withRuns (h : σ.Accepts place o) (xs : SpelledRuns) :
    σ.isFrozen place (o.withRuns xs) = false := by
  have hmark : (o.withRuns xs).mark ≠ .runs place := h.2
  rw [isFrozen_of_mark_ne hmark]
  exact (isFrozen_of_mark_ne h.2).symm.trans h.1

/-- A collection of which no first interval can be taken adds nothing. -/
theorem StoredRuns.object_addEach_of_next? {isFrozen : StoredRuns → Bool} {added : Additions}
    (h : ¬ ∃ x rest, added.next? = some (.ok x, rest)) (count : Nat) :
    (o.addEach isFrozen count added).object = o := by
  cases count with
  | zero => rfl
  | succ count =>
    rw [addEach]
    split
    · rfl
    · rfl
    · exact absurd ⟨_, _, ‹_›⟩ h

/-- **The addition of a collection that ends in a fault leaves the set as it is,** unless the set
accepts changes and the collection stops, or the set is empty and its own mark. -/
theorem Mutation.addAll_cases_of_fault {v : Value} {fault : Fault}
    (h : (applyRuns .addAll σ (σ.isFrozen place) o [v]).fault = some fault) :
    (applyRuns .addAll σ (σ.isFrozen place) o [v]).object = o ∨
    (σ.Accepts place o ∧ ∃ before fault, σ.BreaksAfter v before fault) ∨
    ((o.runs = [] ∧ o.mark = .runs place) ∧
      ∃ added x rest, σ.additions? v = .ok added ∧ added.next? = some (.ok x, rest)) := by
  cases hadded : σ.additions? v with
  | error fault =>
    simp only [applyRuns, hadded]
    exact .inl rfl
  | ok added =>
    simp only [applyRuns, hadded] at h ⊢
    cases hfrozen : σ.isFrozen place o with
    | true => exact .inl (StoredRuns.object_addEach_of_isFrozen hfrozen _ _)
    | false =>
      by_cases hmark : o.mark = .runs place
      · by_cases hnext : ∃ x rest, added.next? = some (.ok x, rest)
        · have hnil : o.runs = [] := by simpa [Store.isFrozen, hmark] using hfrozen
          obtain ⟨x, rest, hx⟩ := hnext
          exact .inr (.inr ⟨⟨hnil, hmark⟩, added, x, rest, rfl, hx⟩)
        · exact .inl (StoredRuns.object_addEach_of_next? hnext _)
      · have haccepts : σ.Accepts place o := ⟨hfrozen, hmark⟩
        -- If all items gave intervals, there would be no fault.
        have hbad : ∀ xs, added.intervals? ≠ .ok xs := fun xs hxs => by
          rw [Additions.count_of_intervals? hxs,
            StoredRuns.fault_addEach hxs haccepts.isFrozen_withRuns] at h
          cases h
        rcases σ.additions?_cases v with ⟨i, rfl⟩ | ⟨p, rfl⟩ | hadditions
        · cases hadded
          exact absurd (Additions.intervals?_items_ok _) (hbad _)
        · cases hadded
          exact absurd rfl (hbad _)
        · rw [hadded] at hadditions
          obtain ⟨⟨items, broken⟩, hpulled, rfl⟩ := map_eq_ok_iff.1 hadditions.symm
          rcases Store.exists_breaksAfter hpulled with ⟨hints, rfl⟩ | hstops
          · refine absurd (Additions.intervals?_items_single hints) ?_
            simpa using hbad _
          · exact .inr (.inl ⟨haccepts, hstops⟩)

/-- An empty set that is its own mark is frozen by the first interval that is added. -/
theorem Mutation.object_addAll_of_own_mark (hσ : σ.Canonical) (hnil : o.runs = [])
    (hmark : o.mark = .runs place) {v : Value} {added rest : Additions} {x : Span}
    (hadded : σ.additions? v = .ok added) (hx : added.next? = some (.ok x, rest)) :
    (applyRuns .addAll σ (σ.isFrozen place) o [v]).object = o.withRuns (o.insert x) ∧
      (o.insert x).runs = [x.interval] := by
  have hone : (o.insert x).runs = [x.interval] := by
    rw [SpelledRuns.runs_insert, hnil, Runs.insert_nil (Store.lo_le_hi_of_next? hσ hadded hx)]
  have hempty : ¬ σ.isFrozen place o = true := by simp [Store.isFrozen, hmark, hnil]
  have hfrozen : σ.isFrozen place (o.withRuns (o.insert x)) = true := by
    rw [Store.isFrozen, StoredRuns.withRuns, hone, if_pos hmark]
    rfl
  obtain ⟨count, hcount⟩ := Nat.exists_eq_succ_of_ne_zero (Additions.count_ne_zero_of_next? hx)
  simp only [applyRuns, hadded, hcount]
  rw [StoredRuns.addEach, hx]
  simp only [if_neg hempty]
  exact ⟨StoredRuns.object_addEach_of_isFrozen hfrozen _ _, hone⟩

/-! ### Steps that end in a fault -/

/-- The step adds to the set at `place` a collection that gives the integers `before` and then stops
with `fault`. -/
def Step.BreaksAfter (s : Step) (σ : Store) (place : Nat) (before : List Value) (fault : Fault) :
    Prop :=
  ∃ name v τ, s.action = .send name (.mutate .addAll) ∧
    Operand.values? s.operands σ = .ok ([v], τ) ∧ σ.value? name = some (.runs place) ∧
    τ.BreaksAfter v before fault

/-- The step adds a collection whose first interval is `x` to the set at `place`, which is empty and
its own mark. -/
def Step.FreezesItself (s : Step) (σ : Store) (place : Nat) (x : Span) : Prop :=
  (∃ o, σ.runs[place]? = some o ∧ o.runs = [] ∧ o.mark = .runs place) ∧
    ∃ name v τ added rest, s.action = .send name (.mutate .addAll) ∧
      Operand.values? s.operands σ = .ok ([v], τ) ∧ σ.value? name = some (.runs place) ∧
      τ.additions? v = .ok added ∧ added.next? = some (.ok x, rest)

/-- Actions that end in a fault change nothing, if they are no requests to a set. -/
theorem Action.Outcome.extends_of_error {vs : List Value} {action : Action} {report : Report}
    (h : action.Outcome τ vs υ report) {fault : Fault} (herror : report.result = .error fault)
    (hruns : ∀ i, action.changed? τ ≠ some (.runs i))
    (helements : ∀ i, action.changed? τ ≠ some (.enumerated i)) : τ.Extends υ := by
  cases h with
  | refused => exact .refl τ
  | make hc => cases herror
  | derive hv hp => cases herror
  | answer hv hp => cases herror
  | changeRuns hv ho => exact absurd hv (hruns _)
  | changeElements hv ho => exact absurd hv (helements _)
  | changeList hv =>
    rw [Mutation.object_applyList_of_fault (Mutation.result_report_eq_error_iff.1 herror)]
    exact Store.extends_setList_self _
  | markVocabulary hv hvs => cases herror

/-- A request to a set that ends in a fault changes nothing, with two exceptions. -/
theorem Step.cases_of_error_runs (hσ : σ.Closed) (ho : σ.runs[place]? = some o) {s : Step}
    (hplace : s.action.changed? σ = some (.runs place)) {fault : Fault}
    (herror : (s.run σ).2.result = .error fault) :
    σ.Extends (s.run σ).1 ∨
      (σ.Accepts place o ∧ ∃ before fault, s.BreaksAfter σ place before fault) ∨
      ∃ x, s.FreezesItself σ place x := by
  rcases s.run_of_changed? hplace ho with ⟨f, -, hrun⟩ | ⟨name, m, vs, τ, hs, hvs, hext, hrun⟩
  · rw [hrun]
    exact .inl (.refl σ)
  · have hname : σ.value? name = some (.runs place) := by rwa [hs] at hplace
    rw [hrun] at herror
    have hfault := Mutation.result_report_eq_error_iff.1 herror
    have hstore : (s.run σ).1 = τ.setRuns place (m.applyRuns τ (τ.isFrozen place) o vs).object := by
      rw [hrun]
      exact congrArg (Store.bindResult _ s.into) herror
    -- Where the set is as before, nothing has changed.
    have hsame : (m.applyRuns τ (τ.isFrozen place) o vs).object = o → σ.Extends (s.run σ).1 :=
      fun heq => by
        rw [hstore, heq]
        exact hext.trans (Store.extends_setRuns_self (hext.runs ho))
    by_cases hm : m = .addAll
    · subst hm
      match vs with
      | [v] =>
        rcases Mutation.addAll_cases_of_fault hfault with
          heq | ⟨haccepts, before, cause, hstops⟩ | ⟨hown, added, x, rest, ha, hx⟩
        · exact .inl (hsame heq)
        · have hfrozen : σ.isFrozen place o = false := by
            rw [← hext.isFrozen_eq hσ ho, haccepts.1]
          exact .inr (.inl ⟨⟨hfrozen, haccepts.2⟩, before, cause, name, v, τ, hs, hvs, hname,
            hstops⟩)
        · exact .inr (.inr ⟨x, ⟨o, ho, hown⟩, name, v, τ, added, rest, hs, hvs, hname, ha, hx⟩)
      | [] => exact .inl (hsame rfl)
      | _ :: _ :: _ => exact .inl (hsame rfl)
    · exact .inl (hsame ((Mutation.applyRuns_outcome _ _ _ _ _).object_of_fault hm hfault))

/-- The object that an action may change is stored. -/
theorem Store.Closed.knows_of_changed? (hσ : σ.Closed) {action : Action} {v : Value}
    (h : action.changed? σ = some v) : σ.Knows v := by
  rw [Action.changed?.eq_def] at h
  split at h
  · exact hσ.value? h
  · cases h
  · cases h
  · cases h

/-- **A step that ends in a fault changes nothing,** with two exceptions. -/
theorem Step.cases_of_error (hσ : σ.Closed) {s : Step}
    (helements : ∀ i, s.action.changed? σ ≠ some (.enumerated i)) {fault : Fault}
    (herror : (s.run σ).2.result = .error fault) :
    σ.Extends (s.run σ).1 ∨
      (∃ place o before fault, σ.runs[place]? = some o ∧ σ.Accepts place o ∧
        s.BreaksAfter σ place before fault) ∨
      ∃ place x, s.FreezesItself σ place x := by
  by_cases hruns : ∃ i, s.action.changed? σ = some (.runs i)
  · obtain ⟨place, hplace⟩ := hruns
    have ho := Array.getElem?_eq_getElem (hσ.knows_of_changed? hplace)
    rcases s.cases_of_error_runs hσ ho hplace herror with
      hextends | ⟨haccepts, before, cause, hstops⟩ | ⟨x, hfreezes⟩
    · exact .inl hextends
    · exact .inr (.inl ⟨place, _, before, cause, ho, haccepts, hstops⟩)
    · exact .inr (.inr ⟨place, x, hfreezes⟩)
  · left
    rcases s.run_cases σ with ⟨f, -, hrun⟩ | ⟨vs, τ, υ, report, hvs, hact, hrun⟩
    · rw [hrun]
      exact .refl σ
    · have hext : σ.Extends τ := Operand.extends_of_values? hvs
      rw [hrun] at herror ⊢
      have hchanged : s.action.changed? τ = s.action.changed? σ := hext.changed?_eq s.action
      have hact' : τ.Extends υ := hact.extends_of_error herror
        (fun i hi => hruns ⟨i, hchanged ▸ hi⟩) fun i hi => helements i (hchanged ▸ hi)
      rw [show report.result = .error fault from herror]
      exact hext.trans hact'

/-- What a step leaves that adds a collection which stops. -/
theorem Step.run_of_breaksAfter (hσ : σ.Reachable) {s : Step} {before : List Value} {fault : Fault}
    (h : s.BreaksAfter σ place before fault) (ho : σ.runs[place]? = some o)
    (haccepts : σ.Accepts place o) :
    (s.run σ).2.result = .error fault ∧
      (s.run σ).1.runs[place]? = some
        (o.withRuns (o.insertAll ((before.filterMap Value.int?).map Span.single))) := by
  obtain ⟨name, v, τ, hs, hvs, hname, hstops⟩ := h
  have hext : σ.Extends τ := Operand.extends_of_values? hvs
  have hτ : τ.Accepts place o :=
    ⟨(hext.isFrozen_eq hσ.closed ho).trans haccepts.1, haccepts.2⟩
  obtain ⟨after, hadded⟩ := Store.exists_additions?_of_breaksAfter hstops
  have hcount : before.length <
      (Additions.items (before.map Value.single? ++ .error fault :: after)).count := by
    simp [Additions.count]
  have heffect := StoredRuns.addEach_stops hτ.isFrozen_withRuns hstops.1 fault after hcount
  have hrun := s.run_mutate hs hvs hname ho
  obtain ⟨hp, -⟩ := s.stored_run_mutate hs hvs hname ho
  simp only [Mutation.applyRuns, hadded, heffect] at hrun hp
  exact ⟨by rw [hrun]; rfl, hp⟩

/-- What a step leaves that freezes a set by its own mark. -/
theorem Step.run_of_freezesItself (hσ : σ.Reachable) {s : Step} {x : Span}
    (h : s.FreezesItself σ place x) :
    ∃ p, (s.run σ).1.runs[place]? = some p ∧ p.mark = .runs place ∧ p.runs = [x.interval] := by
  obtain ⟨⟨o, ho, hnil, hmark⟩, name, v, τ, added, rest, hs, hvs, hname, hadded, hx⟩ := h
  have hcanonical : τ.Canonical :=
    Operand.values?_keeps Store.keptByReading_canonical _ hσ.canonical hvs
  obtain ⟨hp, -⟩ := s.stored_run_mutate hs hvs hname ho
  obtain ⟨hobject, hone⟩ :=
    Mutation.object_addAll_of_own_mark hcanonical hnil hmark hadded hx
  exact ⟨_, hp.trans (congrArg some hobject), hmark, hone⟩

/-- **What a fault leaves behind.** A step that ends in a fault leaves every object as it was, and
every set as frozen as it was, unless it adds a collection. A collection that stops, at an item that
is no integer or by a fault of its own, is added up to there to a set that accepts changes, and its
fault is that of the step. To an empty set that is its own mark only the first interval is added.
All other objects stay as they were in both cases. -/
theorem Step.atomicity (hσ : σ.Reachable) (s : Step) :
    (∀ {fault}, (∀ i, s.action.changed? σ ≠ some (.enumerated i)) →
      (s.run σ).2.result = .error fault →
        (σ.Extends (s.run σ).1 ∧ ∀ {place o}, σ.runs[place]? = some o →
          (s.run σ).1.isFrozen place o = σ.isFrozen place o) ∨
        (∃ place o before fault, σ.runs[place]? = some o ∧ σ.Accepts place o ∧
          s.BreaksAfter σ place before fault) ∨
        ∃ place x, s.FreezesItself σ place x) ∧
    (∀ {place o before fault}, s.BreaksAfter σ place before fault → σ.runs[place]? = some o →
      σ.Accepts place o →
        (s.run σ).2.result = .error fault ∧
        Store.Frame (· = .runs place) σ (s.run σ).1 ∧
        ∃ p, (s.run σ).1.runs[place]? = some p ∧ p.mark = o.mark ∧
          p.toSpelledRuns = o.insertAll ((before.filterMap Value.int?).map Span.single) ∧
          ∀ v, p.runs.Holds v ↔ o.runs.Holds v ∨ v ∈ before.filterMap Value.int?) ∧
    ∀ {place x}, s.FreezesItself σ place x →
      Store.Frame (· = .runs place) σ (s.run σ).1 ∧
      ∃ p, (s.run σ).1.runs[place]? = some p ∧ p.mark = .runs place ∧
        p.runs = [x.interval] := by
  have hframe : ∀ {place}, s.action.changed? σ = some (.runs place) →
      Store.Frame (· = .runs place) σ (s.run σ).1 := fun hplace =>
    (s.frame σ).mono fun v hv => Option.some.inj (hv.symm.trans hplace)
  refine ⟨fun helements herror => (s.cases_of_error hσ.closed helements herror).imp_left
      fun hextends => ⟨hextends, fun ho => hextends.isFrozen_eq hσ.closed ho⟩,
    fun {place o before fault} hstops ho haccepts => ?_,
    fun {place x} hfreezes => ⟨?_, s.run_of_freezesItself hσ hfreezes⟩⟩
  · obtain ⟨hresult, hafter⟩ := s.run_of_breaksAfter hσ hstops ho haccepts
    obtain ⟨name, v, τ, hs, -, hname, -⟩ := hstops
    have hcanonical : o.runs.Canonical := hσ.canonical o (Array.mem_of_getElem? ho)
    refine ⟨hresult, hframe (by rw [hs]; exact hname), _, hafter, rfl, rfl, fun n => ?_⟩
    rw [StoredRuns.withRuns, SpelledRuns.holds_insertAll hcanonical,
      Span.map_interval_single, Runs.holds_map_single]
  · obtain ⟨-, name, v, τ, added, rest, hs, -, hname, -⟩ := hfreezes
    exact hframe (by rw [hs]; exact hname)

/-- A set of `1` to `5` is united with a row of `7` and nothing. Then the row is added to it, or a
collection that breaks off after `9`. An empty set that is its own mark is asked to add `1` and
`2`. -/
theorem Step.atomicity_of_bad_item :
    let σ := Session.run .initial
      [⟨.make .range, [.int 1, .int 5], some "s"⟩, ⟨.make .copy, [], some "x"⟩,
       ⟨.send "x" (.mutate .mark), [.register "x"], none⟩]
    let union : Step := ⟨.send "s" (.derive .union), [.list [.int 7, .nothing]], none⟩
    let addAll : Step := ⟨.send "s" (.mutate .addAll), [.list [.int 7, .nothing]], none⟩
    let addBroken : Step := ⟨.send "s" (.mutate .addAll), [.failing [.int 9]], none⟩
    let addOwn : Step := ⟨.send "x" (.mutate .addAll), [.list [.int 1, .int 2]], none⟩
    σ.Extends (union.run σ).1 ∧
      (addAll.run σ).2.result = .error (.boundsNotIntegers .nothing .nothing) ∧
      (∃ p, (addAll.run σ).1.runs[2]? = some p ∧ p.runs = [⟨1, 5⟩, ⟨7, 7⟩]) ∧
      (addBroken.run σ).2.result = .error .interrupted ∧
      (∃ p, (addBroken.run σ).1.runs[2]? = some p ∧ p.runs = [⟨1, 5⟩, ⟨9, 9⟩]) ∧
      ∃ p, (addOwn.run σ).1.runs[3]? = some p ∧ p.runs = [⟨1, 1⟩] := by
  intro σ union addAll addBroken addOwn
  have hσ : σ.Reachable := ⟨_, rfl⟩
  have ho : σ.runs[2]? = some ⟨.plain [⟨1, 5⟩], .bool false⟩ := by rfl
  have hfault : (union.run σ).2.result = .error (.boundsNotIntegers .nothing .nothing) := by rfl
  have hstops : addAll.BreaksAfter σ 2 [.int 7] (.boundsNotIntegers .nothing .nothing) :=
    ⟨"s", _, _, rfl, rfl, rfl, by simp, _, _, rfl, .inl ⟨.nothing, [], rfl, rfl, rfl⟩⟩
  have hbreaks : addBroken.BreaksAfter σ 2 [.int 9] .interrupted :=
    ⟨"s", _, _, rfl, rfl, rfl, by simp, _, _, rfl, .inr ⟨rfl, rfl⟩⟩
  have hfreezes : addOwn.FreezesItself σ 3 (.single 1) :=
    ⟨⟨_, by rfl, rfl, rfl⟩, "x", _, _, _, _, rfl, rfl, rfl, rfl, rfl⟩
  obtain ⟨hunion, -, -⟩ := Step.atomicity hσ union
  obtain ⟨-, hadd, -⟩ := Step.atomicity hσ addAll
  obtain ⟨-, hbroken, -⟩ := Step.atomicity hσ addBroken
  obtain ⟨-, -, hown⟩ := Step.atomicity hσ addOwn
  obtain ⟨hresult, -, p, hp, -, hruns, -⟩ := hadd hstops ho ⟨rfl, nofun⟩
  obtain ⟨hcause, -, q, hq, -, hleft, -⟩ := hbroken hbreaks ho ⟨rfl, nofun⟩
  obtain ⟨-, r, hr, -, hone⟩ := hown hfreezes
  refine ⟨?_, hresult, ⟨p, hp, congrArg SpelledRuns.runs hruns⟩, hcause,
    ⟨q, hq, congrArg SpelledRuns.runs hleft⟩, r, hr, hone⟩
  rcases hunion nofun hfault with ⟨hextends, -⟩ | ⟨_, _, _, _, -, -, hbad⟩ | ⟨_, _, -, hbad⟩
  · exact hextends
  · obtain ⟨_, _, _, hs, -⟩ := hbad
    cases hs
  · obtain ⟨_, _, _, _, _, hs, -⟩ := hbad
    cases hs

/-- A collection that stops is not the only cause. An empty set that is its own mark takes in `1`,
which freezes it, and then rejects `2`. -/
theorem Step.not_atomicity_of_own_mark :
    ¬ ∀ {σ : Store} {s : Step} {fault : Fault}, σ.Reachable →
      (∀ i, s.action.changed? σ ≠ some (.enumerated i)) → (s.run σ).2.result = .error fault →
        σ.Extends (s.run σ).1 ∨
          ∃ place o before fault, σ.runs[place]? = some o ∧ σ.isFrozen place o = false ∧
            s.BreaksAfter σ place before fault := by
  intro h
  let σ := Session.run .initial
    [⟨.make .copy, [], some "s"⟩, ⟨.send "s" (.mutate .mark), [.register "s"], none⟩]
  let addAll : Step := ⟨.send "s" (.mutate .addAll), [.list [.int 1, .int 2]], none⟩
  have hσ : σ.Reachable := ⟨_, rfl⟩
  have ho : σ.runs[2]? = some ⟨.empty, .runs 2⟩ := by rfl
  have hfreezes : addAll.FreezesItself σ 2 (.single 1) :=
    ⟨⟨_, ho, rfl, rfl⟩, "s", _, _, _, _, rfl, rfl, rfl, rfl, rfl⟩
  obtain ⟨p, hp, -, hone⟩ := addAll.run_of_freezesItself hσ hfreezes
  have hfault : (addAll.run σ).2.result = .error (.frozen .add) := by rfl
  have hlisted : (σ.addList [.int 1, .int 2]).2.pulled? (.list σ.lists.size) =
      .ok ([1, 2].map .int, none) := by rfl
  have hreceiver : addAll.action.changed? σ = some (.runs 2) := by rfl
  have helements : ∀ i, addAll.action.changed? σ ≠ some (.enumerated i) := fun i hi => by
    cases hreceiver.symm.trans hi
  rcases h hσ helements hfault with hextends | ⟨_, _, before, cause, -, -, hstops⟩
  · cases hp.symm.trans (hextends.runs ho)
    cases hone
  · obtain ⟨name, v, τ, -, hvs, -, hstops⟩ := hstops
    cases hvs
    exact Store.not_breaksAfter_of_ints hlisted hstops

end SymbolSets
