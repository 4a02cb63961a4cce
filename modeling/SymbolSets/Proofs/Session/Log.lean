import SymbolSets.Proofs.Session.Freshness
import SymbolSets.Proofs.Session.Records

/-!
# The log of a session

The records of a session tell how often frozen sets rejected a request, and which sets were frozen.
A set that is made in the session is not frozen at first. As it is frozen by a recorded step, and
for good, the log has one record of its freezing if it ends frozen, and none otherwise.

This supposes that no step changes what the mark of the set counts for. A set or a list can be a
mark too, and a step that fills it freezes without a record the set whose mark it is.

## Main definitions

* `Step.LogDiscipline`: the law of the records of one step.
* `Session.reportsOn`: the reports of the steps that are sent to one set.
* `Step.TurnsMark`, `Session.KeepsTruth`: steps that change what a mark counts for, and sessions
  without them.

## Main results

* `Step.logDiscipline`: every step obeys the law.
* `Session.countP_freezing_add`: the records of freezing over a session.
* `Session.log_discipline`: the records of all steps, and over whole sessions.
-/

namespace SymbolSets

/-- Whether the record tells that a set was frozen. -/
def Record.isFreezing : Record → Bool
  | .freezing _ => true
  | .rejected _ _ | .refused _ => false

/-- Whether the result is a fault of a frozen set. -/
def Report.isRejection (r : Report) : Bool :=
  match r.result with
  | .ok _ => false
  | .error fault => fault.isReadonly

/-- Whether the set at a place is stored and frozen. -/
def Store.isFrozenAt (σ : Store) (place : Nat) : Bool :=
  σ.runs[place]?.any (σ.isFrozen place)

variable {σ : Store} {place : Nat} {o : StoredRuns} {s : Step}

/-! ### The records of one step -/

/-- The law of the records of one step. -/
structure Step.LogDiscipline (s : Step) (σ : Store) : Prop where
  length_le_one : (s.run σ).2.records.length ≤ 1
  /-- Freezing is recorded when a set that was not frozen is frozen, and shows the set before. -/
  freezing_iff : ∀ t, .freezing t ∈ (s.run σ).2.records ↔
    ∃ place o, σ.runs[place]? = some o ∧ s.Freezes σ place ∧ σ.isFrozen place o = false ∧
      t = σ.describe (.runs place)
  /-- A rejection is recorded when a request ends in one, and shows the receiver. -/
  rejected_iff : ∀ change t, .rejected change t ∈ (s.run σ).2.records ↔
    (s.run σ).2.result = .error (.frozen change) ∧
      ∃ place, s.action.changed? σ = some (.runs place) ∧ t = (s.run σ).1.describe (.runs place)
  refused_iff : ∀ t, .refused t ∈ (s.run σ).2.records ↔
    (s.run σ).2.result = .error .markKept ∧
      ∃ place, s.action.changed? σ = some (.runs place) ∧ t = (s.run σ).1.describe (.runs place)
  /-- A refusal answers the attempt to clear the mark of a frozen set. -/
  markKept_iff : (s.run σ).2.result = .error .markKept ↔
    ∃ place o, σ.runs[place]? = some o ∧ s.ClearsMark σ place ∧ σ.isFrozen place o = true
  /-- The receiver of what is rejected is unchanged, unless it was frozen on the way. -/
  unchanged : (s.run σ).2.isRejection → ∃ place, s.action.changed? σ = some (.runs place) ∧
    ((∃ x, s.FreezesItself σ place x) ∨ σ.Extends (s.run σ).1 ∧
      (s.run σ).1.describe (.runs place) = σ.describe (.runs place))

/-- A collection does not stop by a rejection. -/
theorem Store.BreaksAfter.isReadonly {v : Value} {before : List Value} {fault : Fault}
    (h : σ.BreaksAfter v before fault) : fault.isReadonly = false := by
  obtain ⟨-, items, broken, hpulled, ⟨bad, after, -, -, rfl⟩ | ⟨-, rfl⟩⟩ := h
  · rfl
  · exact isReadonly_of_pulled? hpulled

namespace Step

theorem changed?_of_freezes (h : s.Freezes σ place) :
    s.action.changed? σ = some (.runs place) := by
  obtain ⟨name, m, vs, τ, v, hs, hname, -⟩ := freezes_iff_assigns.1 h
  rw [hs]
  exact hname

theorem changed?_of_clearsMark (h : s.ClearsMark σ place) :
    s.action.changed? σ = some (.runs place) := by
  obtain ⟨name, v, τ, hname, -, hs, -⟩ := h
  rw [hs]
  exact hname

theorem result_of_isRejection (h : (s.run σ).2.isRejection = true) :
    ∃ fault, (s.run σ).2.result = .error fault ∧ fault.isReadonly = true := by
  rw [Report.isRejection] at h
  split at h
  · cases h
  · exact ⟨_, ‹_›, h⟩

/-- A set that rejects a request is unchanged, unless it was frozen on the way. -/
theorem unchanged_of_isRejection (hσ : σ.Reachable)
    (hplace : s.action.changed? σ = some (.runs place)) (h : (s.run σ).2.isRejection = true) :
    (∃ x, s.FreezesItself σ place x) ∨ σ.Extends (s.run σ).1 ∧
      (s.run σ).1.describe (.runs place) = σ.describe (.runs place) := by
  obtain ⟨fault, hresult, hreadonly⟩ := result_of_isRejection h
  have ho := Array.getElem?_eq_getElem (hσ.closed.knows_of_changed? hplace)
  rcases s.cases_of_error_runs hσ.closed ho hplace hresult with
    hextends | ⟨haccepts, before, cause, hstops⟩ | hfreezes
  · refine .inr ⟨hextends, ?_⟩
    rw [Store.describe_runs ho, Store.describe_runs (hextends.runs ho),
      hextends.isFrozen_eq hσ.closed ho]
  · rw [(s.run_of_breaksAfter hσ hstops ho haccepts).1] at hresult
    cases hresult
    obtain ⟨name, v, τ, -, -, -, hstops⟩ := hstops
    cases hreadonly.symm.trans hstops.isReadonly
  · exact .inl hfreezes

/-- A result that is mild is no fault of a frozen set. -/
theorem ne_of_mild {fault : Fault} (h : Mild (s.run σ).2.result)
    (hreadonly : fault.isReadonly = true) : (s.run σ).2.result ≠ .error fault := by
  intro hresult
  cases hreadonly.symm.trans (h fault hresult)

theorem length_records_le_one (h : s.Records σ) : (s.run σ).2.records.length ≤ 1 := by
  cases h with
  | silent hsilent => rw [hsilent.records]; exact Nat.zero_le 1
  | freezing _ _ _ hrecords _ | rejected _ hrecords _ | refused _ _ _ hrecords _ =>
    rw [hrecords]
    exact Nat.le_refl 1

theorem freezing_mem_iff (hσ : σ.Closed) {t : Text} : .freezing t ∈ (s.run σ).2.records ↔
    ∃ place o, σ.runs[place]? = some o ∧ s.Freezes σ place ∧ σ.isFrozen place o = false ∧
      t = σ.describe (.runs place) := by
  constructor
  · intro h
    cases s.records hσ with
    | silent hsilent => simp [hsilent.records] at h
    | freezing ho hfreezes hfrozen hrecords _ =>
      rw [hrecords, List.mem_singleton] at h
      exact ⟨_, _, ho, hfreezes, hfrozen, Record.freezing.inj h⟩
    | rejected _ hrecords _ | refused _ _ _ hrecords _ => simp [hrecords] at h
  · rintro ⟨place, o, ho, hfreezes, hfrozen, rfl⟩
    rw [(records_of_freezes hσ ho hfreezes hfrozen).1]
    exact List.mem_singleton_self _

theorem rejected_mem_iff (h : s.Records σ) {change : Change} {t : Text} :
    .rejected change t ∈ (s.run σ).2.records ↔ (s.run σ).2.result = .error (.frozen change) ∧
      ∃ place, s.action.changed? σ = some (.runs place) ∧
        t = (s.run σ).1.describe (.runs place) := by
  cases h with
  | silent hsilent =>
    have hne : (s.run σ).2.result ≠ .error (.frozen change) := ne_of_mild hsilent.result rfl
    simp [hsilent.records, hne]
  | freezing _ _ _ hrecords hresult =>
    have hne : (s.run σ).2.result ≠ .error (.frozen change) := ne_of_mild hresult rfl
    simp [hrecords, hne]
  | rejected hplace hrecords hresult => simp [hrecords, hresult, hplace, eq_comm]
  | refused _ _ _ hrecords hresult => simp [hrecords, hresult]

theorem refused_mem_iff (h : s.Records σ) {t : Text} :
    .refused t ∈ (s.run σ).2.records ↔ (s.run σ).2.result = .error .markKept ∧
      ∃ place, s.action.changed? σ = some (.runs place) ∧
        t = (s.run σ).1.describe (.runs place) := by
  cases h with
  | silent hsilent =>
    have hne : (s.run σ).2.result ≠ .error .markKept := ne_of_mild hsilent.result rfl
    simp [hsilent.records, hne]
  | freezing _ _ _ hrecords hresult =>
    have hne : (s.run σ).2.result ≠ .error .markKept := ne_of_mild hresult rfl
    simp [hrecords, hne]
  | rejected _ hrecords hresult => simp [hrecords, hresult]
  | refused _ hclears _ hrecords hresult =>
    simp [hrecords, hresult, changed?_of_clearsMark hclears]

theorem markKept_iff (hσ : σ.Closed) : (s.run σ).2.result = .error .markKept ↔
    ∃ place o, σ.runs[place]? = some o ∧ s.ClearsMark σ place ∧ σ.isFrozen place o = true := by
  constructor
  · intro h
    cases s.records hσ with
    | silent hsilent => exact absurd h (ne_of_mild hsilent.result rfl)
    | freezing _ _ _ _ hresult => exact absurd h (ne_of_mild hresult rfl)
    | rejected _ _ hresult => cases h.symm.trans hresult
    | refused ho hclears hfrozen _ _ => exact ⟨_, _, ho, hclears, hfrozen⟩
  · rintro ⟨place, o, ho, hclears, hfrozen⟩
    exact (report_of_clearsMark hσ ho hclears hfrozen).2

/-- A rejection comes of a request to change a set. -/
theorem exists_changed?_of_isRejection (h : s.Records σ) (hrejection : (s.run σ).2.isRejection) :
    ∃ place, s.action.changed? σ = some (.runs place) := by
  obtain ⟨fault, hresult, hreadonly⟩ := result_of_isRejection hrejection
  cases h with
  | silent hsilent => exact absurd hresult (ne_of_mild hsilent.result hreadonly)
  | freezing _ _ _ _ hmild => exact absurd hresult (ne_of_mild hmild hreadonly)
  | rejected hplace _ _ => exact ⟨_, hplace⟩
  | refused _ hclears _ _ _ => exact ⟨_, changed?_of_clearsMark hclears⟩

/-- **Every step obeys the law of the log.** -/
theorem logDiscipline (hσ : σ.Reachable) (s : Step) : s.LogDiscipline σ where
  length_le_one := length_records_le_one (s.records hσ.closed)
  freezing_iff _ := freezing_mem_iff hσ.closed
  rejected_iff _ _ := rejected_mem_iff (s.records hσ.closed)
  refused_iff _ := refused_mem_iff (s.records hσ.closed)
  markKept_iff := markKept_iff hσ.closed
  unchanged hrejection := by
    obtain ⟨place, hplace⟩ := exists_changed?_of_isRejection (s.records hσ.closed) hrejection
    exact ⟨place, hplace, unchanged_of_isRejection hσ hplace hrejection⟩

theorem isRejection_eq_false (h : Mild (s.run σ).2.result) : (s.run σ).2.isRejection = false := by
  cases hrejection : (s.run σ).2.isRejection with
  | false => rfl
  | true =>
    obtain ⟨fault, hresult, hreadonly⟩ := result_of_isRejection hrejection
    exact absurd hresult (ne_of_mild h hreadonly)

/-- A step records a rejection if it ends in one, and no other. -/
theorem countP_rejections (h : s.Records σ) :
    (s.run σ).2.records.countP (fun r => !r.isFreezing) = (s.run σ).2.isRejection.toNat := by
  cases h with
  | silent hsilent =>
    rw [hsilent.records, isRejection_eq_false hsilent.result]
    rfl
  | freezing _ _ _ hrecords hresult =>
    rw [hrecords, isRejection_eq_false hresult]
    rfl
  | rejected _ hrecords hresult =>
    rw [hrecords, Report.isRejection, hresult]
    rfl
  | refused _ _ _ hrecords hresult =>
    rw [hrecords, Report.isRejection, hresult]
    rfl

end Step

/-! ### Marks over a step -/

/-- The step changes what the mark of the set at `place` counts for. -/
def Step.TurnsMark (s : Step) (σ : Store) (place : Nat) : Prop :=
  ∃ o ∈ σ.runs[place]?, s.action.changed? σ = some o.mark ∧
    (s.run σ).1.isTrue o.mark ≠ σ.isTrue o.mark

instance (s : Step) (σ : Store) (place : Nat) : Decidable (s.TurnsMark σ place) :=
  inferInstanceAs (Decidable (∃ o ∈ σ.runs[place]?, _))

/-- All sets from the place `n` on are unmarked. -/
def Store.IsUnmarkedFrom (n : Nat) (σ : Store) : Prop :=
  ∀ place o, n ≤ place → σ.runs[place]? = some o → o.mark = .bool false

namespace Store.IsUnmarkedFrom

variable {n : Nat}

theorem addRuns (h : σ.IsUnmarkedFrom n) (xs : SpelledRuns) :
    (σ.addRuns xs).2.IsUnmarkedFrom n := by
  intro place o hplace ho
  rw [Store.addRuns, Array.getElem?_push] at ho
  split_ifs at ho with hlast
  · cases ho
    rfl
  · exact h place o hplace ho

theorem enter (h : σ.IsUnmarkedFrom n) (p : Product) : (σ.enter p).2.IsUnmarkedFrom n := by
  cases p with
  | value v => exact h
  | items vs => exact h
  | contents c =>
    cases c with
    | runs xs => exact h.addRuns xs
    | enumerated es => exact h

theorem setRuns (h : σ.IsUnmarkedFrom n) (hplace : place < n) (o : StoredRuns) :
    (σ.setRuns place o).IsUnmarkedFrom n := by
  intro i p hi hp
  rw [Store.setRuns, Array.getElem?_setIfInBounds_ne (by omega)] at hp
  exact h i p hi hp

end Store.IsUnmarkedFrom

theorem Store.keptByReading_isUnmarkedFrom (n : Nat) : KeptByReading (IsUnmarkedFrom n) where
  addRuns _ h := h.addRuns _
  addElements _ h := h
  addList _ h := h
  addFailing _ h := h
  addVocabulary _ h := h

theorem Action.Outcome.isUnmarkedFrom {n : Nat} {υ : Store} {vs : List Value} {action : Action}
    {report : Report} (h : action.Outcome σ vs υ report) (hσ : σ.IsUnmarkedFrom n)
    (hchanged : ∀ place, action.changed? σ = some (.runs place) → place < n) :
    υ.IsUnmarkedFrom n := by
  cases h with
  | refused => exact hσ
  | make hc => exact hσ.enter _
  | derive hv hp => exact hσ.enter _
  | answer hv hp => exact hσ.enter _
  | changeRuns hv ho => exact hσ.setRuns (hchanged _ hv) _
  | changeElements hv ho => exact hσ
  | changeList hv => exact hσ
  | markVocabulary hv hvs => exact hσ

namespace Step

/-- **A set that a step stores has no mark.** -/
theorem isUnmarkedFrom_run (hσ : σ.Closed) (s : Step) :
    (s.run σ).1.IsUnmarkedFrom σ.runs.size := by
  have hnone : σ.IsUnmarkedFrom σ.runs.size := fun place o hplace ho =>
    absurd (Array.getElem?_eq_some_iff.1 ho).1 (by omega)
  rcases s.run_cases σ with ⟨fault, -, hrun⟩ | ⟨vs, τ, υ, report, hvs, hact, hrun⟩
  · rw [hrun]
    exact hnone
  · have hext : σ.Extends τ := Operand.extends_of_values? hvs
    have hτ : τ.IsUnmarkedFrom σ.runs.size :=
      Operand.values?_keeps (Store.keptByReading_isUnmarkedFrom _) s.operands hnone hvs
    have hυ := hact.isUnmarkedFrom hτ fun place hplace => by
      have hknows : σ.Knows (.runs place) :=
        hσ.knows_of_changed? ((hext.changed?_eq s.action).symm.trans hplace)
      exact hknows
    rw [hrun]
    intro place o hplace ho
    rw [Store.runs_bindResult] at ho
    exact hυ place o hplace ho

/-- A mark counts for the same before and after, if the step does not turn it. -/
theorem isTrue_mark_run (hσ : σ.Closed) (ho : σ.runs[place]? = some o)
    (hturn : ¬ s.TurnsMark σ place) : (s.run σ).1.isTrue o.mark = σ.isTrue o.mark := by
  by_cases hmark : s.action.changed? σ = some o.mark
  · by_contra hne
    exact hturn ⟨o, ho, hmark, hne⟩
  · exact (s.frame σ).isTrue_eq (hσ.runs o (Array.mem_of_getElem? ho)) hmark

/-- A step that assigns no mark to a set leaves its mark as it is. -/
theorem exists_mark_run (s : Step) (ho : σ.runs[place]? = some o)
    (h : ∀ b, ¬ s.Assigns σ place b) :
    ∃ p, (s.run σ).1.runs[place]? = some p ∧ p.mark = o.mark := by
  by_cases hplace : s.action.changed? σ = some (.runs place)
  · rcases s.run_of_changed? hplace ho with ⟨fault, -, hrun⟩ | ⟨name, m, vs, τ, hs, hvs, -, -⟩
    · exact ⟨o, by rw [hrun]; exact ho, rfl⟩
    · have hname : σ.value? name = some (.runs place) := by rwa [hs] at hplace
      obtain ⟨hp, -⟩ := s.stored_run_mutate hs hvs hname ho
      refine ⟨_, hp, (m.applyRuns_outcome _ _ _ vs).mark_eq ?_⟩
      cases hassigned : m.assigned? vs with
      | none => rfl
      | some v => exact absurd ⟨name, m, vs, τ, v, hs, hname, hvs, hassigned, rfl⟩ (h _)
  · exact ⟨o, (s.frame σ).runs hplace ho, rfl⟩

end Step

theorem Store.isFrozenAt_eq (ho : σ.runs[place]? = some o) :
    σ.isFrozenAt place = σ.isFrozen place o := by
  rw [isFrozenAt, ho, Option.any_some]

theorem Store.isFrozenAt_eq_false (ho : σ.runs[place]? = none) : σ.isFrozenAt place = false := by
  rw [isFrozenAt, ho, Option.any_none]

namespace Step

/-! ### Freezing over a step -/

/-- A set that is given no mark is as frozen as before, if its mark is not turned. -/
theorem isFrozenAt_run_of_not_assigns (hσ : σ.Closed) (ho : σ.runs[place]? = some o)
    (h : ∀ b, ¬ s.Assigns σ place b) (hturn : ¬ s.TurnsMark σ place) :
    (s.run σ).1.isFrozenAt place = σ.isFrozenAt place := by
  obtain ⟨p, hp, hmark⟩ := s.exists_mark_run ho h
  rw [Store.isFrozenAt_eq hp, Store.isFrozenAt_eq ho, Store.isFrozen_eq_isTrue hp,
    Store.isFrozen_eq_isTrue ho, hmark, isTrue_mark_run hσ ho hturn]

/-- A set that is stored by the step is not frozen. -/
theorem isFrozenAt_run_of_new (hσ : σ.Closed) (s : Step) (hnew : σ.runs[place]? = none) :
    (s.run σ).1.isFrozenAt place = false := by
  have hsize : σ.runs.size ≤ place := Array.getElem?_eq_none_iff.1 hnew
  cases hp : (s.run σ).1.runs[place]? with
  | none => exact Store.isFrozenAt_eq_false hp
  | some p =>
    rw [Store.isFrozenAt_eq hp, Store.isFrozen_eq_isTrue hp,
      s.isUnmarkedFrom_run hσ place p hsize hp]
    rfl

/-- Freezing is recorded by steps that assign a mark. -/
theorem countP_freezing_of_not_assigns (h : s.Records σ)
    (hplace : s.action.changed? σ = some (.runs place)) (hassigns : ∀ b, ¬ s.Assigns σ place b) :
    (s.run σ).2.records.countP Record.isFreezing = 0 := by
  cases h with
  | silent hsilent =>
    rw [hsilent.records]
    rfl
  | freezing ho hfreezes hfrozen hrecords hresult =>
    have hsame := (changed?_of_freezes hfreezes).symm.trans hplace
    obtain rfl := Value.runs.inj (Option.some.inj hsame)
    exact absurd (freezes_iff_assigns.1 hfreezes) (hassigns true)
  | rejected _ hrecords _ | refused _ _ _ hrecords _ =>
    rw [hrecords]
    rfl

/-- A mark that is assigned freezes the set if it was not frozen and the mark counts as true, and
just then there is a record. -/
theorem countP_freezing_of_assigns (hσ : σ.Closed) (ho : σ.runs[place]? = some o) {b : Bool}
    (h : s.Assigns σ place b) :
    (s.run σ).2.records.countP Record.isFreezing + (σ.isFrozenAt place).toNat =
      ((s.run σ).1.isFrozenAt place).toNat := by
  obtain ⟨m, isFrozen, v, hsame, hv, hreport, hp, hpFrozen⟩ := exists_run_of_assigns hσ ho h
  rw [Store.isFrozenAt_eq ho, Store.isFrozenAt_eq hp, hpFrozen, hreport, ← hsame]
  cases hfrozen : isFrozen o with
  | true =>
    cases b with
    | true =>
      rw [StoredRuns.assignMark_of_isFrozen hv, hv, hfrozen]
      rfl
    | false =>
      rw [StoredRuns.assignMark_of_not_isFrozen hfrozen hv, hfrozen]
      rfl
  | false =>
    cases b with
    | true =>
      rw [StoredRuns.assignMark_of_isFrozen hv, hv, hfrozen]
      rfl
    | false =>
      rw [StoredRuns.assignMark, hfrozen, hv]
      simp [Effect.done, Mutation.report, hv]

/-- **Freezing over a step.** A step that is sent to a set records its freezing just when it freezes
the set. A step that is not sent to the set does not freeze it, if it does not turn its mark. -/
theorem countP_freezing_add (hσ : σ.Closed) (s : Step) (hturn : ¬ s.TurnsMark σ place) :
    (if s.action.changed? σ = some (.runs place) then
        (s.run σ).2.records.countP Record.isFreezing else 0) + (σ.isFrozenAt place).toNat =
      ((s.run σ).1.isFrozenAt place).toNat := by
  cases ho : σ.runs[place]? with
  | none =>
    have hplace : s.action.changed? σ ≠ some (.runs place) := fun hplace => by
      have hknows : place < σ.runs.size := hσ.knows_of_changed? hplace
      exact absurd (Array.getElem?_eq_none_iff.1 ho) (by omega)
    rw [if_neg hplace, Store.isFrozenAt_eq_false ho, s.isFrozenAt_run_of_new hσ ho]
    rfl
  | some o =>
    by_cases hassigns : ∃ b, s.Assigns σ place b
    · obtain ⟨b, hb⟩ := hassigns
      have hplace : s.action.changed? σ = some (.runs place) := by
        obtain ⟨name, m, vs, τ, v, hs, hname, -⟩ := hb
        rw [hs]
        exact hname
      rw [if_pos hplace]
      exact countP_freezing_of_assigns hσ ho hb
    · have hnone : ∀ b, ¬ s.Assigns σ place b := fun b hb => hassigns ⟨b, hb⟩
      rw [isFrozenAt_run_of_not_assigns hσ ho hnone hturn]
      split_ifs with hplace
      · rw [countP_freezing_of_not_assigns (s.records hσ) hplace hnone, Nat.zero_add]
      · exact Nat.zero_add _

end Step

/-! ### Sessions -/

namespace Session

/-- The reports of the steps that are sent to the set at `place` to change it. -/
def reportsOn (place : Nat) : Store → List Step → List Report
  | _, [] => []
  | σ, s :: rest =>
    (if s.action.changed? σ = some (.runs place) then [(s.run σ).2] else []) ++
      reportsOn place (s.run σ).1 rest

/-- No step of the session changes what the mark of the set at `place` counts for. -/
def KeepsTruth (place : Nat) : Store → List Step → Prop
  | _, [] => True
  | σ, s :: rest => ¬ s.TurnsMark σ place ∧ KeepsTruth place (s.run σ).1 rest

instance decidableKeepsTruth (place : Nat) : (σ : Store) → (steps : List Step) →
    Decidable (KeepsTruth place σ steps)
  | _, [] => .isTrue trivial
  | σ, s :: rest =>
    have := decidableKeepsTruth place (s.run σ).1 rest
    inferInstanceAs (Decidable (_ ∧ _))

/-- **Freezing over a session.** The induction is on the steps, each of which records the freezing
of the set just when it freezes it. -/
theorem countP_freezing_add (hσ : σ.Reachable) {steps : List Step}
    (hsteps : KeepsTruth place σ steps) :
    ((reportsOn place σ steps).flatMap Report.records).countP Record.isFreezing +
      (σ.isFrozenAt place).toNat = ((run σ steps).isFrozenAt place).toNat := by
  induction steps generalizing σ with
  | nil => exact Nat.zero_add _
  | cons s steps ih =>
    obtain ⟨hturn, hrest⟩ := hsteps
    have hfirst := s.countP_freezing_add hσ.closed hturn
    have hrest := ih (hσ.step s) hrest
    rw [run_cons, ← hrest, ← hfirst, reportsOn, List.flatMap_append, List.countP_append]
    split_ifs with hplace
    · simp only [List.flatMap_singleton]
      omega
    · simp only [List.flatMap_nil, List.countP_nil]
      omega

/-- Rejections are recorded one by one, for all steps and for those that are sent to one set. -/
theorem countP_rejections (hσ : σ.Reachable) (steps : List Step) :
    ((trace σ steps).flatMap fun after => after.2.records).countP (fun r => !r.isFreezing) =
        (trace σ steps).countP (fun after => after.2.isRejection) ∧
      ∀ place, ((reportsOn place σ steps).flatMap Report.records).countP
        (fun r => !r.isFreezing) = (reportsOn place σ steps).countP Report.isRejection := by
  induction steps generalizing σ with
  | nil => exact ⟨rfl, fun _ => rfl⟩
  | cons s steps ih =>
    obtain ⟨hall, hon⟩ := ih (hσ.step s)
    have hfirst : (s.run σ).2.records.countP (fun r => !r.isFreezing) =
        if (s.run σ).2.isRejection then 1 else 0 := by
      rw [Step.countP_rejections (s.records hσ.closed)]
      cases (s.run σ).2.isRejection with
      | false => rfl
      | true => rfl
    constructor
    · rw [trace, List.flatMap_cons, List.countP_append, hfirst, hall, List.countP_cons,
        Nat.add_comm]
    · intro place
      rw [reportsOn, List.flatMap_append, List.countP_append, List.countP_append, hon]
      split_ifs with hplace
      · rw [List.flatMap_singleton, hfirst, List.countP_singleton]
      · rfl

/-- **The log tells how often frozen sets rejected a request, and which sets were frozen.** Every
step obeys the law of the log. Over a session there are as many records of rejections as steps that
end in one, in all and for each set. A set that is made in the session is recorded to freeze once if
it ends frozen and never otherwise, if no step changes what its mark counts for. -/
theorem log_discipline :
    (∀ {σ : Store}, σ.Reachable → ∀ s : Step, s.LogDiscipline σ) ∧
    ∀ steps,
      ((trace .initial steps).flatMap fun after => after.2.records).countP
          (fun r => !r.isFreezing) =
        (trace .initial steps).countP (fun after => after.2.isRejection) ∧
      ∀ place, Store.initial.runs.size ≤ place →
        ((reportsOn place .initial steps).flatMap Report.records).countP (fun r => !r.isFreezing) =
          (reportsOn place .initial steps).countP Report.isRejection ∧
        (KeepsTruth place .initial steps →
          ((reportsOn place .initial steps).flatMap Report.records).countP Record.isFreezing =
            if (run .initial steps).isFrozenAt place then 1 else 0) := by
  have hinitial : Store.initial.Reachable := ⟨[], rfl⟩
  refine ⟨fun hσ s => s.logDiscipline hσ, fun steps => ?_⟩
  obtain ⟨hall, hon⟩ := countP_rejections hinitial steps
  refine ⟨hall, fun place hplace => ⟨hon place, fun hsteps => ?_⟩⟩
  have hcount := countP_freezing_add hinitial hsteps
  have hnew : Store.initial.isFrozenAt place = false :=
    Store.isFrozenAt_eq_false (Array.getElem?_eq_none_iff.2 hplace)
  rw [hnew, Bool.toNat_false, Nat.add_zero] at hcount
  rw [hcount]
  cases (run .initial steps).isFrozenAt place with
  | false => rfl
  | true => rfl

/-- A set is frozen twice, rejects an addition, and keeps its mark. -/
theorem log_discipline_frozen_twice :
    let steps : List Step :=
      [⟨.make .range, [.int 5], some "s"⟩, ⟨.send "s" (.mutate .add), [.int 6], none⟩,
       ⟨.send "s" (.mutate .freeze), [], none⟩, ⟨.send "s" (.mutate .mark), [.int 1], none⟩,
       ⟨.send "s" (.mutate .add), [.int 7], none⟩, ⟨.send "s" (.mutate .mark), [.nothing], none⟩]
    (∀ s : Step, s.LogDiscipline (run .initial steps)) ∧
      ((reportsOn 2 .initial steps).flatMap Report.records).countP Record.isFreezing = 1 ∧
      ((reportsOn 2 .initial steps).flatMap Report.records).countP
        (fun r => !r.isFreezing) = 2 := by
  intro steps
  have hsteps : KeepsTruth 2 .initial steps := by decide +kernel +revert
  have hfrozen : (run .initial steps).isFrozenAt 2 = true := by decide +kernel +revert
  have hrejections : (reportsOn 2 .initial steps).countP Report.isRejection = 2 := by
    decide +kernel +revert
  obtain ⟨hstep, hsession⟩ := log_discipline
  obtain ⟨hother, hfreezing⟩ := (hsession steps).2 2 (Nat.le_refl 2)
  refine ⟨hstep ⟨steps, rfl⟩, ?_, hother.trans hrejections⟩
  rw [hfreezing hsteps, if_pos hfrozen]

/-- A mark that is a set breaks the law in two ways. An empty set is the mark of a set of `5`; when
it takes in `1`, the other set is frozen without a record. An empty set that is its own mark takes
in `1` before it rejects `2`, and is not unchanged. -/
theorem not_log_discipline_of_marks :
    (¬ ∀ steps place, Store.initial.runs.size ≤ place →
      ((reportsOn place .initial steps).flatMap Report.records).countP Record.isFreezing =
        if (run .initial steps).isFrozenAt place then 1 else 0) ∧
    ¬ ∀ {σ : Store} {s : Step}, σ.Reachable → (s.run σ).2.isRejection →
      σ.Extends (s.run σ).1 := by
  constructor
  · intro h
    let steps : List Step :=
      [⟨.make .copy, [], some "t"⟩, ⟨.make .range, [.int 5], some "s"⟩,
       ⟨.send "s" (.mutate .mark), [.register "t"], none⟩,
       ⟨.send "t" (.mutate .add), [.int 1], none⟩]
    have hfrozen : (run .initial steps).isFrozenAt 3 = true := by decide +kernel +revert
    have hnone : ((reportsOn 3 .initial steps).flatMap Report.records).countP
        Record.isFreezing = 0 := by decide +kernel +revert
    have hone := h steps 3 (by decide)
    rw [if_pos hfrozen, hnone] at hone
    cases hone
  · intro h
    let σ := run .initial
      [⟨.make .copy, [], some "s"⟩, ⟨.send "s" (.mutate .mark), [.register "s"], none⟩]
    let addAll : Step := ⟨.send "s" (.mutate .addAll), [.list [.int 1, .int 2]], none⟩
    have hrejected : (addAll.run σ).2.isRejection = true := by decide +kernel +revert
    have hbefore : 2 < σ.runs.size ∧ σ.runsAt 2 = [] := by decide +kernel +revert
    have hafter : (addAll.run σ).1.runsAt 2 = [⟨1, 1⟩] := by decide +kernel +revert
    have hσ : σ.Reachable := ⟨_, rfl⟩
    rw [(h hσ hrejected).runsAt_eq hbefore.1, hbefore.2] at hafter
    cases hafter

end Session

end SymbolSets
