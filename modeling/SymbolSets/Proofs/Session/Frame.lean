import SymbolSets.Proofs.Session.Reference

/-!
# What a step leaves alone

A step may change one object only, and only if it sends it a request for a change. All other objects
stay at their places as they are, whatever becomes of the step. A mark counts for the same before
and after, unless it names the object that is changed.

## Main definitions

* `Action.changed?`: the object that an action may change.
* `Store.Frame`: a store that differs from another at most in given objects, and in new ones.
* `Session.Changes`: the objects that the steps of a session may change.

## Main results

* `Step.frame`, `Session.frame`: what a step and a session leave alone.
* `Store.Frame.isTrue_eq`: what marks count for in a frame.
* `Step.run_of_changed?`: what a request for a change to a set kept by runs does.
-/

namespace SymbolSets

/-- The object that an action may change, which is the receiver of a request for a change. -/
def Action.changed? (σ : Store) : Action → Option Value
  | .send receiver (.mutate _) => σ.value? receiver
  | .send _ (.derive _) | .send _ (.query _) | .make _ => none

/-- Every object of `σ` is found unchanged at its place in `τ`, apart from those that are among the
`changed`. -/
structure Store.Frame (changed : Value → Prop) (σ τ : Store) : Prop where
  runs : ∀ {i : Nat} {o}, ¬ changed (.runs i) → σ.runs[i]? = some o → τ.runs[i]? = some o
  elements : ∀ {i : Nat} {o}, ¬ changed (.enumerated i) →
    σ.elements[i]? = some o → τ.elements[i]? = some o
  lists : ∀ {i : Nat} {vs}, ¬ changed (.list i) → σ.lists[i]? = some vs → τ.lists[i]? = some vs
  vocabularies : ∀ {i : Nat} {o}, ¬ changed (.vocabulary i) →
    σ.vocabularies[i]? = some o → τ.vocabularies[i]? = some o

namespace Store

variable {changed : Value → Prop} {σ τ υ : Store}

/-! ### Frames -/

theorem Extends.frame (h : σ.Extends τ) : Frame changed σ τ :=
  ⟨fun _ => h.runs, fun _ => h.elements, fun _ => h.lists, fun _ => h.vocabularies⟩

theorem Frame.trans (h : Frame changed σ τ) (h' : Frame changed τ υ) : Frame changed σ υ :=
  ⟨fun hne ho => h'.runs hne (h.runs hne ho), fun hne ho => h'.elements hne (h.elements hne ho),
    fun hne ho => h'.lists hne (h.lists hne ho),
    fun hne ho => h'.vocabularies hne (h.vocabularies hne ho)⟩

/-- A frame remains one if more objects may be changed. -/
theorem Frame.mono {changed' : Value → Prop} (h : Frame changed σ τ)
    (hchanged : ∀ v, changed v → changed' v) : Frame changed' σ τ :=
  ⟨fun hne => h.runs (mt (hchanged _) hne), fun hne => h.elements (mt (hchanged _) hne),
    fun hne => h.lists (mt (hchanged _) hne), fun hne => h.vocabularies (mt (hchanged _) hne)⟩

/-- An array of which one place is written keeps its items at the others. -/
private theorem getElem?_setIfInBounds_of_some {α : Type} {xs : Array α} {i j : Nat} {x y : α}
    (hne : j ≠ i) (h : xs[i]? = some x) : (xs.setIfInBounds j y)[i]? = some x := by
  rw [Array.getElem?_setIfInBounds_ne hne, h]

theorem frame_setRuns {place : Nat} {o : StoredRuns} (h : changed (.runs place)) :
    Frame changed σ (σ.setRuns place o) :=
  { (Extends.refl σ).frame with
    runs := fun hne => getElem?_setIfInBounds_of_some fun heq => hne (heq ▸ h) }

theorem frame_setElements {place : Nat} {o : StoredElements} (h : changed (.enumerated place)) :
    Frame changed σ (σ.setElements place o) :=
  { (Extends.refl σ).frame with
    elements := fun hne => getElem?_setIfInBounds_of_some fun heq => hne (heq ▸ h) }

theorem frame_setList {place : Nat} {vs : List Value} (h : changed (.list place)) :
    Frame changed σ (σ.setList place vs) :=
  { (Extends.refl σ).frame with
    lists := fun hne => getElem?_setIfInBounds_of_some fun heq => hne (heq ▸ h) }

theorem frame_markVocabulary {place : Nat} {mark : Value} (h : changed (.vocabulary place)) :
    Frame changed σ (σ.markVocabulary place mark) :=
  { (Extends.refl σ).frame with
    vocabularies := fun {i o} hne ho => by
      have hplace : place ≠ i := fun heq => hne (heq ▸ h)
      rw [markVocabulary, Array.getElem?_modify, if_neg hplace, ho] }

theorem extends_enter (σ : Store) (p : Product) : σ.Extends (σ.enter p).2 := by
  cases p with
  | value v => exact .refl σ
  | items vs => exact extends_addList σ vs
  | contents c =>
    cases c with
    | runs xs => exact extends_addRuns σ xs
    | enumerated es => exact extends_addElements σ es

/-- Registers are no objects. -/
theorem frame_bindResult (σ : Store) (into : Option String) (result : Except Fault Value) :
    Frame changed σ (σ.bindResult into result) := by
  cases result with
  | error fault => exact (Extends.refl σ).frame
  | ok v =>
    cases into with
    | none => exact (Extends.refl σ).frame
    | some name => exact ⟨fun _ => id, fun _ => id, fun _ => id, fun _ => id⟩

theorem knows_bindResult {into : Option String} {result : Except Fault Value} {v : Value} :
    (σ.bindResult into result).Knows v ↔ σ.Knows v := by
  cases result with
  | error fault => exact Iff.rfl
  | ok w =>
    cases into with
    | none => exact Iff.rfl
    | some name => cases v <;> exact Iff.rfl

/-! ### Marks in a frame -/

/-- **A mark counts for the same before and after,** unless it names an object that is changed. -/
theorem Frame.isTrue_eq (h : Frame changed σ τ) {v : Value} (hv : σ.Knows v) (hne : ¬ changed v) :
    τ.isTrue v = σ.isTrue v := by
  cases v with
  | runs place =>
    have ho := Array.getElem?_eq_getElem hv
    rw [isTrue, isTrue, runsAt_eq_of_getElem? ho, runsAt_eq_of_getElem? (h.runs hne ho)]
  | enumerated place =>
    have ho := Array.getElem?_eq_getElem hv
    rw [isTrue, isTrue, elementsAt, elementsAt, ho, h.elements hne ho]
  | list place =>
    have ho := Array.getElem?_eq_getElem hv
    rw [isTrue, isTrue, listAt, listAt, ho, h.lists hne ho]
  | _ => rfl

/-- A stored set is frozen while its mark counts as true, also if it is its own mark. -/
theorem isFrozen_eq_isTrue {place : Nat} {o : StoredRuns} (ho : σ.runs[place]? = some o) :
    σ.isFrozen place o = σ.isTrue o.mark := by
  rw [isFrozen]
  split_ifs with hself
  · rw [hself, isTrue, runsAt_eq_of_getElem? ho]
  · rfl

end Store

/-! ### What steps and sessions leave alone -/

section

variable {σ τ υ : Store} {vs : List Value} {action : Action} {report : Report}

theorem Store.Extends.changed?_eq (h : σ.Extends τ) (action : Action) :
    action.changed? τ = action.changed? σ := by
  rw [Action.changed?.eq_def, Action.changed?.eq_def]
  split
  · exact h.value? _
  · rfl
  · rfl
  · rfl

theorem Action.Outcome.frame (h : action.Outcome τ vs υ report) :
    Store.Frame (fun v => action.changed? τ = some v) τ υ := by
  cases h with
  | refused => exact (Store.Extends.refl τ).frame
  | make hc => exact (τ.extends_enter _).frame
  | derive hv hp => exact (τ.extends_enter _).frame
  | answer hv hp => exact (τ.extends_enter _).frame
  | changeRuns hv ho => exact Store.frame_setRuns hv
  | changeElements hv ho => exact Store.frame_setElements hv
  | changeList hv => exact Store.frame_setList hv
  | markVocabulary hv hvs => exact Store.frame_markVocabulary hv

/-- What is stored stays stored, though it may be changed. -/
theorem Action.Outcome.knows (h : action.Outcome τ vs υ report) {v : Value} (hv : τ.Knows v) :
    υ.Knows v := by
  cases h with
  | refused => exact hv
  | make hc => exact (τ.extends_enter _).knows hv
  | derive hw hp => exact (τ.extends_enter _).knows hv
  | answer hw hp => exact (τ.extends_enter _).knows hv
  | changeRuns hw ho => exact Store.knows_setRuns.2 hv
  | changeElements hw ho => exact Store.knows_setElements.2 hv
  | changeList hw => exact Store.knows_setList.2 hv
  | markVocabulary hw hvs => exact Store.knows_markVocabulary.2 hv

/-- **What a step leaves alone.** Every object that is not sent a request for a change is the same
after the step, whether the step succeeds or ends in a fault. -/
theorem Step.frame (s : Step) (σ : Store) :
    Store.Frame (fun v => s.action.changed? σ = some v) σ (s.run σ).1 := by
  rcases s.run_cases σ with ⟨fault, -, hrun⟩ | ⟨vs, τ, υ, report, hvs, hact, hrun⟩
  · rw [hrun]
    exact (Store.Extends.refl σ).frame
  · have hext : σ.Extends τ := Operand.extends_of_values? hvs
    rw [hrun, ← hext.changed?_eq]
    exact hext.frame.trans (hact.frame.trans (υ.frame_bindResult s.into report.result))

theorem Step.knows_run (s : Step) {v : Value} (hv : σ.Knows v) : (s.run σ).1.Knows v := by
  rcases s.run_cases σ with ⟨fault, -, hrun⟩ | ⟨vs, τ, υ, report, hvs, hact, hrun⟩
  · rwa [hrun]
  · rw [hrun, Store.knows_bindResult]
    exact hact.knows ((Operand.extends_of_values? hvs).knows hv)

/-- The objects that the steps of a session may change. Registers are read as the steps before leave
them. -/
def Session.Changes : Store → List Step → Value → Prop
  | _, [], _ => False
  | σ, s :: rest, v => s.action.changed? σ = some v ∨ Changes (s.run σ).1 rest v

/-- **What a session leaves alone.** The induction is on the steps, each of which leaves alone what
it is not sent to. -/
theorem Session.frame (σ : Store) (steps : List Step) :
    Store.Frame (Changes σ steps) σ (run σ steps) := by
  induction steps generalizing σ with
  | nil => exact (Store.Extends.refl σ).frame
  | cons s steps ih =>
    have hfirst := (s.frame σ).mono fun v hv => (.inl hv : Changes σ (s :: steps) v)
    have hrest := (ih (s.run σ).1).mono fun v hv => (.inr hv : Changes σ (s :: steps) v)
    exact hfirst.trans hrest

end

/-! ### A request for a change to a set kept by runs -/

theorem Mutation.result_report_eq_ok_iff {α : Type} {m : Mutation} {receiver v : Value}
    {effect : Effect α} :
    (m.report receiver effect).result = .ok v ↔
      effect.fault = none ∧ v = if m.answersReceiver then receiver else .nothing := by
  rw [report]
  cases effect.fault with
  | none =>
    simp only [Option.elim_none, Except.ok.injEq, true_and]
    exact eq_comm
  | some fault => simp

theorem Mutation.result_report_eq_error_iff {α : Type} {m : Mutation} {receiver : Value}
    {effect : Effect α} {fault : Fault} :
    (m.report receiver effect).result = .error fault ↔ effect.fault = some fault := by
  rw [report]
  cases effect.fault with
  | none => simp
  | some other => simp

/-- A request for a change does to the set what it says, and writes the set back to its place. -/
theorem Step.run_mutate {s : Step} {σ τ : Store} {place : Nat} {o : StoredRuns} {name : String}
    {m : Mutation} {vs : List Value} (hs : s.action = .send name (.mutate m))
    (hvs : Operand.values? s.operands σ = .ok (vs, τ))
    (hname : σ.value? name = some (.runs place)) (ho : σ.runs[place]? = some o) :
    let effect := m.applyRuns τ (τ.isFrozen place) o vs
    let report := m.report (.runs place) effect
    s.run σ = ((τ.setRuns place effect.object).bindResult s.into report.result, report) := by
  have hext : σ.Extends τ := Operand.extends_of_values? hvs
  have hτ : τ.value? name = some (.runs place) := (hext.value? name).trans hname
  simp only [run, perform, hvs, act, hs, hτ, Request.perform, Mutation.perform, hext.runs ho]

/-- **What a request for a change does.** Either its operands are at fault and nothing happens, or
it does to the set what the request says, and writes the set back to its place. -/
theorem Step.run_of_changed? {s : Step} {σ : Store} {place : Nat} {o : StoredRuns}
    (h : s.action.changed? σ = some (.runs place)) (ho : σ.runs[place]? = some o) :
    (∃ fault, Operand.values? s.operands σ = .error fault ∧ s.run σ = (σ, ⟨.error fault, []⟩)) ∨
      ∃ name m vs τ, s.action = .send name (.mutate m) ∧
        Operand.values? s.operands σ = .ok (vs, τ) ∧ σ.Extends τ ∧
        let effect := m.applyRuns τ (τ.isFrozen place) o vs
        let report := m.report (.runs place) effect
        s.run σ = ((τ.setRuns place effect.object).bindResult s.into report.result, report) := by
  cases hvs : Operand.values? s.operands σ with
  | error fault => exact .inl ⟨fault, rfl, by simp only [run, perform, hvs, Store.bindResult]⟩
  | ok read =>
    obtain ⟨vs, τ⟩ := read
    obtain ⟨name, m, hs, hname⟩ : ∃ name m, s.action = .send name (.mutate m) ∧
        σ.value? name = some (.runs place) := by
      rw [Action.changed?.eq_def] at h
      split at h
      · exact ⟨_, _, ‹_›, h⟩
      · cases h
      · cases h
      · cases h
    exact .inr ⟨name, m, vs, τ, hs, rfl, Operand.extends_of_values? hvs,
      s.run_mutate hs hvs hname ho⟩

end SymbolSets
