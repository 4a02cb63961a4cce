import SymbolSets.Proofs.Store.Extension
import SymbolSets.Session.Step

/-!
# What a step can do

A step reads its operands, and then its action does one of a few things to the store: nothing, a new
object, or a change to the one object that the request was sent to. Everything that all steps keep
is proved from this list, one case for each kind of action.

## Main definitions

* `Action.Outcome`: the stores and reports that can come of an action.
* `Store.Reachable`: the stores that sessions lead to.

## Main results

* `Step.act_outcome`, `Step.run_cases`: what comes of an action, and of a step.
* `Step.run_keeps`: what a step keeps if each of its parts does.
* `Session.run_induction`: what holds at first and is kept by every step holds after every session.
-/

namespace SymbolSets

/-- What an action can do to the store that its operands were read in, and the report of it. -/
inductive Action.Outcome (σ : Store) (vs : List Value) : Action → Store → Report → Prop
  /-- The request ends in a fault before it changes anything. -/
  | refused {action fault} : Outcome σ vs action σ ⟨.error fault, []⟩
  | make {m c} (hc : Maker.make σ m vs = .ok c) :
      Outcome σ vs (.make m) (σ.enter (.contents c)).2 ⟨.ok (σ.enter (.contents c)).1, []⟩
  | derive {name d v p} (hv : σ.value? name = some v) (hp : d.derive σ v vs = .ok p) :
      Outcome σ vs (.send name (.derive d)) (σ.enter p).2 ⟨.ok (σ.enter p).1, []⟩
  | answer {name q v p} (hv : σ.value? name = some v) (hp : Query.answer σ q v vs = .ok p) :
      Outcome σ vs (.send name (.query q)) (σ.enter p).2 ⟨.ok (σ.enter p).1, []⟩
  | changeRuns {name m place o} (hv : σ.value? name = some (.runs place))
      (ho : σ.runs[place]? = some o) :
      Outcome σ vs (.send name (.mutate m))
        (σ.setRuns place (m.applyRuns σ (σ.isFrozen place) o vs).object)
        (m.report (.runs place) (m.applyRuns σ (σ.isFrozen place) o vs))
  | changeElements {name m place o} (hv : σ.value? name = some (.enumerated place))
      (ho : σ.elements[place]? = some o) :
      Outcome σ vs (.send name (.mutate m))
        (σ.setElements place (m.applyElements σ o vs).object)
        (m.report (.enumerated place) (m.applyElements σ o vs))
  | changeList {name m place} (hv : σ.value? name = some (.list place)) :
      Outcome σ vs (.send name (.mutate m))
        (σ.setList place (m.applyList σ (σ.listAt place) vs).object)
        (m.report (.list place) (m.applyList σ (σ.listAt place) vs))
  | markVocabulary {name place v} (hv : σ.value? name = some (.vocabulary place))
      (hvs : vs = [v]) :
      Outcome σ vs (.send name (.mutate .mark)) (σ.markVocabulary place v) ⟨.ok .nothing, []⟩

namespace Step

theorem mutate_outcome {σ : Store} {vs : List Value} {name : String} {m : Mutation} {v : Value}
    (hv : σ.value? name = some v) :
    (Action.send name (.mutate m)).Outcome σ vs (m.perform σ v vs).1 (m.perform σ v vs).2 := by
  rw [Mutation.perform.eq_def]
  split
  · split
    · exact .changeRuns hv ‹_›
    · exact .refused
  · split
    · exact .changeElements hv ‹_›
    · exact .refused
  · exact .changeList hv
  · split
    · exact .markVocabulary hv rfl
    · exact .refused
  · exact .refused
  · exact .refused

/-- **The outcomes of an action are all there are.** -/
theorem act_outcome (s : Step) (σ : Store) (vs : List Value) :
    s.action.Outcome σ vs (s.act σ vs).1 (s.act σ vs).2 := by
  rw [act.eq_def]
  obtain ⟨action, operands, into⟩ := s
  cases action with
  | make m =>
    cases hc : Maker.make σ m vs with
    | error fault => simpa only [hc] using .refused
    | ok c => simpa only [hc] using .make hc
  | send name r =>
    cases hv : σ.value? name with
    | none => simpa only [hv] using .refused
    | some v =>
      simp only [hv]
      cases r with
      | mutate m => exact mutate_outcome hv
      | derive d =>
        cases hp : d.derive σ v vs with
        | error fault => simpa only [Request.perform, hp] using .refused
        | ok p => simpa only [Request.perform, hp] using .derive hv hp
      | query q =>
        cases hp : Query.answer σ q v vs with
        | error fault => simpa only [Request.perform, hp] using .refused
        | ok p => simpa only [Request.perform, hp] using .answer hv hp

/-- **What a step can do.** Either its operands are at fault and nothing happens, or its action has
one of its outcomes in the store in which the operands were read, and the result is bound. -/
theorem run_cases (s : Step) (σ : Store) :
    (∃ fault, Operand.values? s.operands σ = .error fault ∧ s.run σ = (σ, ⟨.error fault, []⟩)) ∨
      ∃ vs τ υ report, Operand.values? s.operands σ = .ok (vs, τ) ∧
        s.action.Outcome τ vs υ report ∧
        s.run σ = (υ.bindResult s.into report.result, report) := by
  cases hvs : Operand.values? s.operands σ with
  | error fault => exact .inl ⟨fault, rfl, by simp only [run, perform, hvs, Store.bindResult]⟩
  | ok read =>
    obtain ⟨vs, τ⟩ := read
    exact .inr ⟨vs, τ, _, _, rfl, s.act_outcome τ vs, by simp only [run, perform, hvs]⟩

/-- What reading operands, acting and binding a result keep is kept by a step. -/
theorem run_keeps {P : Store → Prop} (hread : Store.KeptByReading P)
    (hact : ∀ {σ vs action τ report}, P σ → Action.Outcome σ vs action τ report → P τ)
    (hbind : ∀ {σ} into result, P σ → P (σ.bindResult into result)) (s : Step) {σ : Store}
    (hσ : P σ) : P (s.run σ).1 := by
  rcases s.run_cases σ with ⟨fault, -, hrun⟩ | ⟨vs, τ, υ, report, hvs, houtcome, hrun⟩
  · rw [hrun]
    exact hσ
  · rw [hrun]
    exact hbind s.into report.result (hact (Operand.values?_keeps hread s.operands hσ hvs) houtcome)

end Step

/-! ### Stores that sessions lead to -/

/-- The store is the one after some session that starts with the predefined sets. -/
def Store.Reachable (σ : Store) : Prop :=
  ∃ steps, σ = Session.run .initial steps

namespace Session

@[simp] theorem run_nil (σ : Store) : run σ [] = σ :=
  rfl

@[simp] theorem run_cons (σ : Store) (s : Step) (steps : List Step) :
    run σ (s :: steps) = run (s.run σ).1 steps :=
  rfl

theorem run_append (σ : Store) (first second : List Step) :
    run σ (first ++ second) = run (run σ first) second := by
  rw [run, List.foldl_append, run, run]

/-- **Induction over a session.** What every step keeps is kept by all steps of a session. -/
theorem run_induction {P : Store → Prop} (hstep : ∀ σ s, P σ → P (Step.run s σ).1) {σ : Store}
    (hσ : P σ) (steps : List Step) : P (run σ steps) := by
  induction steps generalizing σ with
  | nil => exact hσ
  | cons s steps ih => exact ih (hstep σ s hσ)

/-- Each store of a trace is the one after some first steps of the session. -/
theorem exists_run_of_mem_trace {σ : Store} {steps : List Step} {after : Store × Report}
    (h : after ∈ trace σ steps) : ∃ first, first <+: steps ∧ after.1 = run σ first := by
  induction steps generalizing σ with
  | nil => cases h
  | cons s steps ih =>
    rcases List.mem_cons.1 h with rfl | h
    · exact ⟨[s], List.prefix_append [s] steps, rfl⟩
    · obtain ⟨first, hfirst, heq⟩ := ih h
      exact ⟨s :: first, (List.prefix_cons_inj s).2 hfirst, heq⟩

/-- The last store of a trace is the one after the session. -/
theorem exists_mem_trace {σ : Store} {steps : List Step} (h : steps ≠ []) :
    ∃ after ∈ trace σ steps, after.1 = run σ steps := by
  induction steps generalizing σ with
  | nil => exact absurd rfl h
  | cons s steps ih =>
    cases steps with
    | nil => exact ⟨_, List.mem_cons_self, rfl⟩
    | cons t rest =>
      obtain ⟨after, hafter, heq⟩ := ih (List.cons_ne_nil t rest) (σ := (s.run σ).1)
      exact ⟨after, List.mem_cons_of_mem _ hafter, heq⟩

end Session

variable {σ : Store}

/-- A session that starts in a reachable store ends in one. -/
theorem Store.Reachable.run (h : σ.Reachable) (steps : List Step) :
    (Session.run σ steps).Reachable := by
  obtain ⟨first, rfl⟩ := h
  exact ⟨first ++ steps, (Session.run_append _ _ _).symm⟩

theorem Store.Reachable.step (h : σ.Reachable) (s : Step) : (s.run σ).1.Reachable :=
  h.run [s]

end SymbolSets
