import SymbolSets.Proofs.Session.Atomicity
import SymbolSets.Proofs.Session.Faults

/-!
# What a step records

A step writes a record when it freezes a set that was not frozen, and when a frozen set rejects a
change or keeps its mark. It writes one record at most, and no other step writes any. The record
shows the set as it was before it froze, or the set that would not change.

## Main definitions

* `Report.IsSilent`: a report of a step that a frozen set had no part in.
* `Effect.RecordsRejection`: what is recorded of a change that assigns no mark.
* `Mutation.assigned?`: the mark that a request assigns.
* `Step.ClearsMark`: a step that assigns a mark that counts as false.
* `Step.Records`: what a step may record.

## Main results

* `Mutation.Outcome.recordsRejection`: the records of changes to a set.
* `Step.records`: what every step records.
* `Step.records_of_freezes`, `Step.report_of_clearsMark`: the steps that assign marks.
-/

namespace SymbolSets

/-- Nothing was recorded, and the result is not a fault of a frozen set. -/
structure Report.IsSilent (r : Report) : Prop where
  records : r.records = []
  result : Mild r.result

variable {σ τ : Store} {place : Nat} {o : StoredRuns}

/-! ### Requests that frozen sets have no part in -/

theorem Store.isSilent_produce {x : Except Fault Product} (hx : Mild x) :
    (σ.produce x).2.IsSilent := by
  cases x with
  | error fault => exact ⟨rfl, mild_error_iff.2 (mild_error_iff.1 hx)⟩
  | ok p => exact ⟨rfl, mild_ok _⟩

namespace Mutation

theorem isSilent_report {α : Type} {m : Mutation} {receiver : Value} {effect : Effect α}
    (hrecords : effect.records = [])
    (hfault : ∀ fault, effect.fault = some fault → fault.isReadonly = false) :
    (m.report receiver effect).IsSilent where
  records := hrecords
  result fault h := hfault fault (result_report_eq_error_iff.1 h)

theorem records_applyElements {m : Mutation} {p : StoredElements} {vs : List Value} :
    (m.applyElements σ p vs).records = [] := by
  rw [applyElements.eq_def]
  split
  · rfl
  · split
    · rfl
    · rfl
  · split_ifs with hv
    · rfl
    · rfl
  all_goals rfl

theorem records_applyList {m : Mutation} {items vs : List Value} :
    (m.applyList σ items vs).records = [] := by
  rw [applyList.eq_def]
  split
  · rfl
  · split_ifs with hamong
    · rfl
    · rfl
  all_goals rfl

/-- Changes to what is no set kept by runs are silent. -/
theorem isSilent_perform {m : Mutation} {receiver : Value} {vs : List Value}
    (h : ∀ place, receiver ≠ .runs place) : (m.perform σ receiver vs).2.IsSilent := by
  rw [perform.eq_def]
  split
  · exact absurd rfl (h _)
  · split
    · exact isSilent_report records_applyElements fun _ => isReadonly_applyElements
    · exact ⟨rfl, mild_error_iff.2 rfl⟩
  · exact isSilent_report records_applyList fun _ => isReadonly_applyList
  · split
    · exact ⟨rfl, mild_ok _⟩
    · exact ⟨rfl, mild_error_iff.2 rfl⟩
  · refine ⟨rfl, mild_error_iff.2 ?_⟩
    split_ifs with hm
    · rfl
    · rfl
  · exact ⟨rfl, mild_error_iff.2 rfl⟩

end Mutation

theorem Step.isSilent_act {s : Step} (h : ∀ place, s.action.changed? σ ≠ some (.runs place))
    (vs : List Value) : (s.act σ vs).2.IsSilent := by
  obtain ⟨action, operands, into⟩ := s
  cases action with
  | make m => exact Store.isSilent_produce (mild_map_iff.2 (m.mild_make σ vs))
  | send name r =>
    cases hname : σ.value? name with
    | none =>
      simp only [act, hname]
      exact ⟨rfl, mild_error_iff.2 rfl⟩
    | some v =>
      simp only [act, hname]
      cases r with
      | mutate m => exact Mutation.isSilent_perform fun place hv => h place (hv ▸ hname)
      | derive d => exact Store.isSilent_produce (d.mild_derive σ v vs)
      | query q => exact Store.isSilent_produce (q.mild_answer σ v vs)

/-- **A step that is not sent to a set kept by runs to change it is silent.** -/
theorem Step.isSilent_of_changed? {s : Step}
    (h : ∀ place, s.action.changed? σ ≠ some (.runs place)) : (s.run σ).2.IsSilent := by
  have hoperands := Operand.mild_values? s.operands σ
  cases hvs : Operand.values? s.operands σ with
  | error fault =>
    simp only [run, perform, hvs]
    rw [hvs] at hoperands
    exact ⟨rfl, mild_error_iff.2 (mild_error_iff.1 hoperands)⟩
  | ok read =>
    obtain ⟨vs, τ⟩ := read
    have hext : σ.Extends τ := Operand.extends_of_values? hvs
    simp only [run, perform, hvs]
    rw [← hext.changed?_eq] at h
    exact isSilent_act h vs

/-! ### Requests to a set kept by runs -/

/-- Either a frozen set had no part in the change, or the set that it left is frozen and rejects the
rest. -/
inductive Effect.RecordsRejection (isFrozen : StoredRuns → Bool) (e : Effect StoredRuns) : Prop
  | silent (hrecords : e.records = [])
      (hfault : ∀ fault, e.fault = some fault → fault.isReadonly = false)
  | rejected (change : Change) (hfrozen : isFrozen e.object = true)
      (hrecords : e.records = [.rejected change (e.object.description true)])
      (hfault : e.fault = some (.frozen change))

section

variable {isFrozen : StoredRuns → Bool}

namespace StoredRuns

theorem recordsRejection_rejection (ho : isFrozen o = true) (change : Change) :
    (o.rejection change).RecordsRejection isFrozen :=
  .rejected change ho rfl rfl

theorem recordsRejection_done (o : StoredRuns) : (Effect.done o).RecordsRejection isFrozen :=
  .silent rfl nofun

/-- Additions come to an end, or to a bad item, or the set is frozen by then. The induction is on
the number of intervals. -/
theorem recordsRejection_addEach : (count : Nat) → {o : StoredRuns} → {added : Additions} →
    added.AreMild → (o.addEach isFrozen count added).RecordsRejection isFrozen
  | 0, o, _, _ => recordsRejection_done o
  | count + 1, o, added, h => by
    rw [addEach]
    split
    · exact recordsRejection_done o
    · refine .silent rfl fun fault hfault => ?_
      cases hfault
      exact mild_error_iff.1 (h.of_next? ‹_›).1
    · split_ifs with hfrozen
      · exact recordsRejection_rejection hfrozen .add
      · exact recordsRejection_addEach count (h.of_next? ‹_›).2

theorem recordsRejection_remove (o : StoredRuns) (v : Value) :
    (o.remove v).RecordsRejection isFrozen := by
  rcases o.remove_cases v with ⟨n, hremove⟩ | hremove | hremove | hremove
  · rw [hremove]
    exact recordsRejection_done _
  · rw [hremove]
    exact recordsRejection_done _
  all_goals
    rw [hremove]
    exact .silent rfl fun fault hfault => by cases hfault; rfl

end StoredRuns

namespace Mutation

/-- The mark that a request assigns, if it assigns one. -/
def assigned? : Mutation → List Value → Option Value
  | .freeze, [] => some (.bool true)
  | .mark, [v] => some v
  | _, _ => none

theorem applyRuns_of_assigned? {m : Mutation} {vs : List Value} {v : Value}
    (h : m.assigned? vs = some v) : m.applyRuns σ isFrozen o vs = o.assignMark isFrozen v := by
  rw [assigned?.eq_def] at h
  split at h
  · cases h
    rfl
  · cases h
    rfl
  · cases h

/-- A request that assigns no mark leaves the mark as it is. -/
theorem Outcome.mark_eq {m : Mutation} {vs : List Value} {effect : Effect StoredRuns}
    (h : m.Outcome σ isFrozen o vs effect) (hm : m.assigned? vs = none) :
    effect.object.mark = o.mark := by
  cases h with
  | refused | rejected | unlisted | clear => rfl
  | add | addAll => exact StoredRuns.mark_addEach _ _ _
  | remove v => exact StoredRuns.mark_remove o v
  | freeze | mark => cases hm

theorem areMild_interval? (lo hi : Value) : (Additions.items [Value.interval? lo hi]).AreMild := by
  simp [Additions.AreMild]

/-- **What a request that assigns no mark records.** -/
theorem Outcome.recordsRejection {m : Mutation} {vs : List Value} {effect : Effect StoredRuns}
    (h : m.Outcome σ isFrozen o vs effect) (hm : m.assigned? vs = none) :
    effect.RecordsRejection isFrozen := by
  cases h with
  | refused => exact .silent rfl fun fault hfault => by cases hfault; rfl
  | rejected change ho => exact StoredRuns.recordsRejection_rejection ho change
  | add lo hi => exact StoredRuns.recordsRejection_addEach 1 (areMild_interval? lo hi)
  | addAll h => exact StoredRuns.recordsRejection_addEach _ (Store.areMild_of_additions? h)
  | unlisted herror =>
    exact .silent rfl fun fault hfault => by
      cases hfault
      exact σ.mild_additions? _ _ herror
  | remove v => exact StoredRuns.recordsRejection_remove o v
  | clear => exact StoredRuns.recordsRejection_done _
  | freeze | mark => cases hm

end Mutation

end

/-! ### One step -/

/-- A set is frozen by a mark that counts as true. -/
theorem Store.isFrozen_marked (ho : σ.runs[place]? = some o) (v : Value) :
    σ.isFrozen place { o with mark := v } = σ.isTrue v := by
  rw [isFrozen]
  split_ifs with hself
  · obtain rfl : v = .runs place := hself
    rw [isTrue, runsAt_eq_of_getElem? ho]
  · rfl

theorem Store.describe_runs (ho : σ.runs[place]? = some o) :
    σ.describe (.runs place) = o.description (σ.isFrozen place o) := by
  have hdescribe : σ.describe (.runs place) = σ.describeRuns place := by
    rw [describe]
    cases σ.lists.size with
    | zero => rfl
    | succ depth => rfl
  rw [hdescribe, describeRuns, ho]

/-- The step assigns a mark that counts as false to the set at `place`. -/
def Step.ClearsMark (s : Step) (σ : Store) (place : Nat) : Prop :=
  ∃ name v τ, σ.value? name = some (.runs place) ∧ Operand.values? s.operands σ = .ok ([v], τ) ∧
    s.action = .send name (.mutate .mark) ∧ τ.isTrue v = false

/-- What a step may record. -/
inductive Step.Records (s : Step) (σ : Store) : Prop
  | silent (hsilent : (s.run σ).2.IsSilent)
  | freezing {place : Nat} {o : StoredRuns} (ho : σ.runs[place]? = some o)
      (hfreezes : s.Freezes σ place) (hfrozen : σ.isFrozen place o = false)
      (hrecords : (s.run σ).2.records = [.freezing (σ.describe (.runs place))])
      (hresult : Mild (s.run σ).2.result)
  | rejected {place : Nat} {change : Change} (hplace : s.action.changed? σ = some (.runs place))
      (hrecords : (s.run σ).2.records =
        [.rejected change ((s.run σ).1.describe (.runs place))])
      (hresult : (s.run σ).2.result = .error (.frozen change))
  | refused {place : Nat} {o : StoredRuns} (ho : σ.runs[place]? = some o)
      (hclears : s.ClearsMark σ place) (hfrozen : σ.isFrozen place o = true)
      (hrecords : (s.run σ).2.records = [.refused ((s.run σ).1.describe (.runs place))])
      (hresult : (s.run σ).2.result = .error .markKept)

namespace Step

variable {s : Step}

/-! ### Steps that assign a mark -/

/-- The step assigns a mark to the set at `place`, which counts for `b` as a condition. -/
def Assigns (s : Step) (σ : Store) (place : Nat) (b : Bool) : Prop :=
  ∃ name m vs τ v, s.action = .send name (.mutate m) ∧ σ.value? name = some (.runs place) ∧
    Operand.values? s.operands σ = .ok (vs, τ) ∧ m.assigned? vs = some v ∧ τ.isTrue v = b

theorem freezes_iff_assigns : s.Freezes σ place ↔ s.Assigns σ place true := by
  constructor
  · rintro ⟨name, vs, τ, hname, hvs, ⟨hs, rfl⟩ | ⟨hs, v, rfl, hv⟩⟩
    · exact ⟨name, _, _, τ, _, hs, hname, hvs, rfl, rfl⟩
    · exact ⟨name, _, _, τ, v, hs, hname, hvs, rfl, hv⟩
  · rintro ⟨name, m, vs, τ, v, hs, hname, hvs, h, hv⟩
    rw [Mutation.assigned?.eq_def] at h
    split at h
    · exact ⟨name, _, τ, hname, hvs, .inl ⟨hs, rfl⟩⟩
    · cases h
      exact ⟨name, _, τ, hname, hvs, .inr ⟨hs, v, rfl, hv⟩⟩
    · cases h

theorem clearsMark_iff_assigns : s.ClearsMark σ place ↔ s.Assigns σ place false := by
  constructor
  · rintro ⟨name, v, τ, hname, hvs, hs, hv⟩
    exact ⟨name, _, _, τ, v, hs, hname, hvs, rfl, hv⟩
  · rintro ⟨name, m, vs, τ, v, hs, hname, hvs, h, hv⟩
    rw [Mutation.assigned?.eq_def] at h
    split at h
    · cases h
      cases hv
    · cases h
      exact ⟨name, v, τ, hname, hvs, hs, hv⟩
    · cases h

/-- What an assignment of a mark does is decided by whether the set was frozen and by what the mark
counts for. -/
theorem exists_run_of_assigns (hσ : σ.Closed) (ho : σ.runs[place]? = some o) {b : Bool}
    (h : s.Assigns σ place b) :
    ∃ (m : Mutation) (isFrozen : StoredRuns → Bool) (v : Value),
      isFrozen o = σ.isFrozen place o ∧ isFrozen { o with mark := v } = b ∧
      (s.run σ).2 = m.report (.runs place) (o.assignMark isFrozen v) ∧
      (s.run σ).1.runs[place]? = some (o.assignMark isFrozen v).object ∧
      (s.run σ).1.isFrozen place (o.assignMark isFrozen v).object =
        isFrozen (o.assignMark isFrozen v).object := by
  obtain ⟨name, m, vs, τ, v, hs, hname, hvs, h, hv⟩ := h
  have hext : σ.Extends τ := Operand.extends_of_values? hvs
  obtain ⟨hp, hpFrozen⟩ := s.stored_run_mutate hs hvs hname ho
  have hrun := s.run_mutate hs hvs hname ho
  rw [Mutation.applyRuns_of_assigned? h] at hp hpFrozen hrun
  exact ⟨m, τ.isFrozen place, v, hext.isFrozen_eq hσ ho,
    (Store.isFrozen_marked (hext.runs ho) v).trans hv, by rw [hrun], hp, hpFrozen⟩

/-- **A step that freezes a set is recorded.** -/
theorem records_of_freezes (hσ : σ.Closed) (ho : σ.runs[place]? = some o)
    (hfreezes : s.Freezes σ place) (hfrozen : σ.isFrozen place o = false) :
    (s.run σ).2.records = [.freezing (σ.describe (.runs place))] ∧ Mild (s.run σ).2.result := by
  obtain ⟨m, isFrozen, v, hsame, hv, hreport, -⟩ :=
    exists_run_of_assigns hσ ho (freezes_iff_assigns.1 hfreezes)
  rw [hreport, StoredRuns.assignMark_of_isFrozen hv, hsame, Store.describe_runs ho, hfrozen]
  exact ⟨rfl, mild_ok _⟩

/-- **A step that clears the mark of a frozen set is refused.** -/
theorem report_of_clearsMark (hσ : σ.Closed) (ho : σ.runs[place]? = some o)
    (hclears : s.ClearsMark σ place) (hfrozen : σ.isFrozen place o = true) :
    (s.run σ).2.records = [.refused ((s.run σ).1.describe (.runs place))] ∧
      (s.run σ).2.result = .error .markKept := by
  obtain ⟨m, isFrozen, v, hsame, hv, hreport, hp, hpFrozen⟩ :=
    exists_run_of_assigns hσ ho (clearsMark_iff_assigns.1 hclears)
  have ho' : isFrozen o = true := hsame.trans hfrozen
  rw [StoredRuns.assignMark_of_not_isFrozen ho' hv] at hreport hp hpFrozen
  have hafter : (s.run σ).1.isFrozen place o = true := hpFrozen.trans ho'
  rw [hreport, Store.describe_runs hp, hafter]
  exact ⟨rfl, rfl⟩

/-- A mark that does not change whether the set is frozen is taken without a record. -/
theorem isSilent_of_assigns (hσ : σ.Closed) (ho : σ.runs[place]? = some o)
    (h : s.Assigns σ place (σ.isFrozen place o)) : (s.run σ).2.IsSilent := by
  obtain ⟨m, isFrozen, v, hsame, hv, hreport, -⟩ := exists_run_of_assigns hσ ho h
  have hdone : o.assignMark isFrozen v = .done { o with mark := v } := by
    rw [StoredRuns.assignMark, hsame, hv]
    cases σ.isFrozen place o with
    | true => rfl
    | false => rfl
  rw [hreport, hdone]
  exact Mutation.isSilent_report rfl fun fault hfault => by cases hfault

/-! ### All steps -/

/-- What a step records that assigns a mark to a set. -/
theorem records_of_assigns (hσ : σ.Closed) (ho : σ.runs[place]? = some o) {b : Bool}
    (h : s.Assigns σ place b) : s.Records σ := by
  cases hfrozen : σ.isFrozen place o with
  | true =>
    cases b with
    | true => exact .silent (isSilent_of_assigns hσ ho (hfrozen.symm ▸ h))
    | false =>
      have hclears := clearsMark_iff_assigns.2 h
      obtain ⟨hrecords, hresult⟩ := report_of_clearsMark hσ ho hclears hfrozen
      exact .refused ho hclears hfrozen hrecords hresult
  | false =>
    cases b with
    | true =>
      have hfreezes := freezes_iff_assigns.2 h
      obtain ⟨hrecords, hresult⟩ := records_of_freezes hσ ho hfreezes hfrozen
      exact .freezing ho hfreezes hfrozen hrecords hresult
    | false => exact .silent (isSilent_of_assigns hσ ho (hfrozen.symm ▸ h))

/-- What a step records that is sent to a set and assigns no mark. -/
theorem records_of_not_assigned? (ho : σ.runs[place]? = some o) {name : String}
    {m : Mutation} {vs : List Value} (hs : s.action = .send name (.mutate m))
    (hvs : Operand.values? s.operands σ = .ok (vs, τ))
    (hname : σ.value? name = some (.runs place)) (h : m.assigned? vs = none) : s.Records σ := by
  have hrun := s.run_mutate hs hvs hname ho
  obtain ⟨hp, hpFrozen⟩ := s.stored_run_mutate hs hvs hname ho
  have heffect : (m.applyRuns τ (τ.isFrozen place) o vs).RecordsRejection (τ.isFrozen place) :=
    (m.applyRuns_outcome _ _ o vs).recordsRejection h
  cases heffect with
  | silent hrecords hfault =>
    refine .silent ?_
    rw [hrun]
    exact Mutation.isSilent_report hrecords hfault
  | rejected change hfrozen hrecords hfault =>
    have hplace : s.action.changed? σ = some (.runs place) := by rw [hs]; exact hname
    have hresult : (s.run σ).2.result = .error (.frozen change) := by
      rw [hrun]
      exact Mutation.result_report_eq_error_iff.2 hfault
    refine .rejected hplace ?_ hresult
    rw [Store.describe_runs hp, hpFrozen, hfrozen, hrun]
    exact hrecords

/-- **What every step records.** -/
theorem records (hσ : σ.Closed) (s : Step) : s.Records σ := by
  by_cases hplace : ∃ place, s.action.changed? σ = some (.runs place)
  · obtain ⟨place, hplace⟩ := hplace
    have hstored : place < σ.runs.size := hσ.knows_of_changed? hplace
    have ho := Array.getElem?_eq_getElem hstored
    rcases s.run_of_changed? hplace ho with ⟨fault, hvs, hrun⟩ | ⟨name, m, vs, τ, hs, hvs, hext, -⟩
    · refine .silent ⟨by rw [hrun], ?_⟩
      rw [hrun]
      exact mild_error_iff.2 (Operand.mild_values? s.operands σ fault hvs)
    · have hname : σ.value? name = some (.runs place) := by rwa [hs] at hplace
      cases h : m.assigned? vs with
      | some v => exact records_of_assigns hσ ho ⟨name, m, vs, τ, v, hs, hname, hvs, h, rfl⟩
      | none => exact records_of_not_assigned? ho hs hvs hname h
  · exact .silent (isSilent_of_changed? fun place h => hplace ⟨place, h⟩)

end Step

end SymbolSets
