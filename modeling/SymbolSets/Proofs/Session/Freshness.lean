import SymbolSets.Proofs.Session.Permanence

/-!
# New sets are new objects

A request for a set is answered with an object of its own, whatever its operands are: an empty set,
the receiver itself, a frozen set. So later changes to it do not change an operand, nor do changes
to an operand change it. Requests that answer with their receiver are the additions of a collection
and the freezing of a set.

The value of a mark stays with a set that is left alone. A mark may name another object, though, and
what it counts for is asked of that object: a set is no longer frozen once the set that is its mark
is emptied.

## Main definitions

* `Action.AsksForSet`: the actions that answer with a new set.

## Main results

* `Step.new_of_result`: a set that a step answers with is new.
* `Step.result_of_answersReceiver`: the requests that answer with their receiver.
* `Step.frame_and_new`: what a step leaves alone, and what it stores.
-/

namespace SymbolSets

/-- The action makes a set from its operands, or derives one from a value. -/
def Action.AsksForSet : Action → Prop
  | .make _ | .send _ (.derive _) => True
  | .send _ (.mutate _) | .send _ (.query _) => False

variable {σ τ υ : Store}

/-! ### What is derived from no set -/

/-- An operator between values that are no sets gives no set. -/
theorem Value.operate?_ne_runs {op : Operator} {v w : Value} {place : Nat} :
    v.operate? op w ≠ .ok (.runs place) := by
  intro h
  -- The result is known in every store, and this one holds no set.
  have hknown : Store.Knows { Store.initial with runs := #[] } (.runs place) :=
    knows_of_operate? h
  exact Nat.not_lt_zero place hknown

theorem Derivation.ofValue_ne_runs {d : Derivation} {v : Value} {operands : List Value}
    {place : Nat} : d.ofValue v operands ≠ .ok (.runs place) := by
  rw [ofValue.eq_def]
  split
  · simp
  · simp
  · exact Value.operate?_ne_runs
  · simp

/-- A set that is derived is not one that was at hand. -/
theorem Derivation.derive_ne_runs {d : Derivation} {v : Value} {operands : List Value}
    {place : Nat} : d.derive σ v operands ≠ .ok (.value (.runs place)) := by
  rw [derive.eq_def]
  split
  · simp [map_eq_ok_iff]
  · simp [map_eq_ok_iff, ofValue_ne_runs]

/-! ### New sets -/

theorem Store.Extends.size_runs_le (h : σ.Extends τ) : σ.runs.size ≤ τ.runs.size := by
  refine Nat.not_lt.1 fun hlt => ?_
  have hknows : τ.Knows (.runs τ.runs.size) := h.knows hlt
  exact Nat.lt_irrefl _ hknows

/-- What is entered as a set goes to a place that was free. -/
theorem Store.getElem?_enter {p : Product} {place : Nat} (hp : p ≠ .value (.runs place))
    (h : (σ.enter p).1 = .runs place) :
    place = σ.runs.size ∧ ∃ xs, (σ.enter p).2.runs[place]? = some ⟨xs, .bool false⟩ := by
  cases p with
  | value v => exact absurd (congrArg Product.value h) hp
  | items vs => cases h
  | contents c =>
    cases c with
    | enumerated es => cases h
    | runs xs =>
      cases h
      exact ⟨rfl, xs, by simp [enter, addRuns]⟩

theorem Action.Outcome.new_of_result {vs : List Value} {action : Action} {report : Report}
    (h : action.Outcome τ vs υ report) (haction : action.AsksForSet) {place : Nat}
    (hresult : report.result = .ok (.runs place)) :
    place = τ.runs.size ∧ ∃ xs, υ.runs[place]? = some ⟨xs, .bool false⟩ := by
  cases h with
  | refused => cases hresult
  | make hc => exact Store.getElem?_enter nofun (Except.ok.inj hresult)
  | derive hv hp =>
    refine Store.getElem?_enter (fun heq => ?_) (Except.ok.inj hresult)
    subst heq
    exact Derivation.derive_ne_runs hp
  | answer hv hp => exact haction.elim
  | changeRuns hv ho => exact haction.elim
  | changeElements hv ho => exact haction.elim
  | changeList hv => exact haction.elim
  | markVocabulary hv hvs => exact haction.elim

/-- **A set that a step answers with is new.** It was not stored before, no operand is it, and it is
stored without a mark. -/
theorem Step.new_of_result (hσ : σ.Closed) {s : Step} (hs : s.action.AsksForSet) {place : Nat}
    (hresult : (s.run σ).2.result = .ok (.runs place)) :
    σ.runs.size ≤ place ∧
      (∀ {vs τ}, Operand.values? s.operands σ = .ok (vs, τ) → .runs place ∉ vs) ∧
      ∃ xs, (s.run σ).1.runs[place]? = some ⟨xs, .bool false⟩ := by
  rcases s.run_cases σ with ⟨fault, -, hrun⟩ | ⟨vs, τ, υ, report, hvs, hact, hrun⟩
  · rw [hrun] at hresult
    cases hresult
  · rw [hrun] at hresult
    obtain ⟨hplace, xs, hxs⟩ := hact.new_of_result hs hresult
    subst hplace
    refine ⟨(Operand.extends_of_values? hvs).size_runs_le, fun hvs' hmem => ?_, xs, ?_⟩
    · obtain ⟨rfl, rfl⟩ := Prod.mk.inj (Except.ok.inj (hvs.symm.trans hvs'))
      have hknows : τ.Knows (.runs τ.runs.size) := Operand.knows_of_values? hσ hvs _ hmem
      exact Nat.lt_irrefl _ hknows
    · rw [hrun, Store.runs_bindResult, hxs]

/-! ### Requests that answer with their receiver -/

section

variable {s : Step} {name : String} {m : Mutation} {place : Nat} {o : StoredRuns}

/-- **The requests that answer with their receiver** answer with nothing else. -/
theorem Step.result_of_answersReceiver (hs : s.action = .send name (.mutate m))
    (hm : m.answersReceiver = true) (hname : σ.value? name = some (.runs place))
    (ho : σ.runs[place]? = some o) {v : Value} (hresult : (s.run σ).2.result = .ok v) :
    v = .runs place := by
  have hchanged : s.action.changed? σ = some (.runs place) := by rw [hs]; exact hname
  rcases s.run_of_changed? hchanged ho with ⟨fault, -, hrun⟩ | ⟨n, m', vs, τ, hs', -, -, hrun⟩
  · rw [hrun] at hresult
    cases hresult
  · obtain ⟨rfl, rfl⟩ : name = n ∧ m = m' := by simpa using hs.symm.trans hs'
    rw [hrun, Mutation.result_report_eq_ok_iff, if_pos hm] at hresult
    exact hresult.2

/-- **Freezing succeeds,** and answers with the set. -/
theorem Step.result_freeze (hs : s.action = .send name (.mutate .freeze))
    (hoperands : s.operands = []) (hname : σ.value? name = some (.runs place))
    (ho : σ.runs[place]? = some o) :
    (s.run σ).2.result = .ok (.runs place) := by
  have hvs : Operand.values? s.operands σ = .ok ([], σ) := by rw [hoperands]; rfl
  have htrue : σ.isFrozen place { o with mark := .bool true } = true := rfl
  rw [s.run_mutate hs hvs hname ho, Mutation.result_report_eq_ok_iff]
  simp only [Mutation.applyRuns, StoredRuns.assignMark_of_isFrozen htrue, Mutation.answersReceiver,
    if_true, and_self]

/-- **Adding integers to a set that accepts changes succeeds,** and answers with the set. -/
theorem Step.result_addAll (hσ : σ.Reachable) (hs : s.action = .send name (.mutate .addAll))
    (hname : σ.value? name = some (.runs place)) (ho : σ.runs[place]? = some o) {c : Call}
    (hc : s.call? σ place = some c) (haccepts : σ.Accepts place o) :
    (s.run σ).2.result = .ok (.runs place) := by
  obtain ⟨p, -, -, hkeeps⟩ := s.changes_run hσ ho hc
  have hok : (s.run σ).2.result.isOk := (hkeeps haccepts).1
  cases hresult : (s.run σ).2.result with
  | error fault =>
    rw [hresult] at hok
    cases hok
  | ok v => rw [s.result_of_answersReceiver hs rfl hname ho hresult]

end

/-! ### What a step leaves alone and what it stores -/

/-- A set that is left alone is as frozen as before, unless the step turns what its mark counts
for. -/
theorem Step.isFrozen_run (s : Step) (hσ : σ.Closed) {place : Nat} {o : StoredRuns}
    (ho : σ.runs[place]? = some o) (hplace : s.action.changed? σ ≠ some (.runs place)) :
    (s.run σ).1.isFrozen place o = σ.isFrozen place o ∨
      s.action.changed? σ = some o.mark ∧ (s.run σ).1.isTrue o.mark ≠ σ.isTrue o.mark := by
  rw [Store.isFrozen_eq_isTrue ho, Store.isFrozen_eq_isTrue ((s.frame σ).runs hplace ho)]
  by_cases hsame : (s.run σ).1.isTrue o.mark = σ.isTrue o.mark
  · exact .inl hsame
  · have hmark : s.action.changed? σ = some o.mark := by
      by_contra hne
      exact hsame ((s.frame σ).isTrue_eq (hσ.runs o (Array.mem_of_getElem? ho)) hne)
    exact .inr ⟨hmark, hsame⟩

/-- **A step changes no object but its receiver, and a set that it returns is new.** A request that
is none for a change leaves its receiver alone, too. A set that is left alone is as frozen as before
unless its mark is the receiver and counts for something else now. A new set is not frozen, is no
object that was stored before, and no operand; what later steps do to an object never changes
another. -/
theorem Step.frame_and_new (hσ : σ.Reachable) (s : Step) :
    Store.Frame (fun v => s.action.changed? σ = some v) σ (s.run σ).1 ∧
    (∀ {place o}, σ.runs[place]? = some o → s.action.changed? σ ≠ some (.runs place) →
      (s.run σ).1.isFrozen place o = σ.isFrozen place o ∨
        s.action.changed? σ = some o.mark ∧ (s.run σ).1.isTrue o.mark ≠ σ.isTrue o.mark) ∧
    (s.action.AsksForSet → ∀ {place}, (s.run σ).2.result = .ok (.runs place) →
      σ.runs.size ≤ place ∧
        (∀ {vs τ}, Operand.values? s.operands σ = .ok (vs, τ) → .runs place ∉ vs) ∧
        ∃ xs, (s.run σ).1.runs[place]? = some ⟨xs, .bool false⟩) ∧
    (∀ later, Store.Frame (Session.Changes (s.run σ).1 later) (s.run σ).1
      (Session.run (s.run σ).1 later)) ∧
    ∀ {name place o}, σ.value? name = some (.runs place) → σ.runs[place]? = some o →
      (s.action = .send name (.mutate .freeze) → s.operands = [] →
        (s.run σ).2.result = .ok (.runs place)) ∧
      (s.action = .send name (.mutate .addAll) →
        (∀ {v}, (s.run σ).2.result = .ok v → v = .runs place) ∧
        ∀ {c}, s.call? σ place = some c → σ.Accepts place o →
          (s.run σ).2.result = .ok (.runs place)) := by
  refine ⟨s.frame σ, fun {place o} ho hplace => s.isFrozen_run hσ.closed ho hplace,
    fun hs => s.new_of_result hσ.closed hs, Session.frame _,
    fun {name place o} hname ho => ⟨fun hs hoperands => ?_, fun hs => ?_⟩⟩
  · exact s.result_freeze hs hoperands hname ho
  · exact ⟨fun hresult => s.result_of_answersReceiver hs rfl hname ho hresult,
      fun hc haccepts => s.result_addAll hσ hs hname ho hc haccepts⟩

/-- A frozen set is united with nothing. The union takes in `9`, which the frozen set does not, and
is then frozen itself. -/
theorem Step.frame_and_new_union :
    let σ := Session.run .initial
      [⟨.make .range, [.int 1, .int 5], some "a"⟩, ⟨.send "a" (.mutate .freeze), [], none⟩]
    let union : Step :=
      ⟨.send "a" (.derive (.operator .union)), [.register "EMPTY_SET"], some "u"⟩
    let addAll : Step := ⟨.send "u" (.mutate .addAll), [.list [.int 9]], none⟩
    let freeze : Step := ⟨.send "u" (.mutate .freeze), [], none⟩
    let τ := (union.run σ).1
    (∃ xs, τ.runs[3]? = some ⟨xs, .bool false⟩) ∧
      (Session.run τ [addAll]).runs[2]? = some ⟨.plain [⟨1, 5⟩], .bool true⟩ ∧
      (addAll.run τ).1.isFrozen 2 ⟨.plain [⟨1, 5⟩], .bool true⟩ =
        τ.isFrozen 2 ⟨.plain [⟨1, 5⟩], .bool true⟩ ∧
      (addAll.run τ).2.result = .ok (.runs 3) ∧ (freeze.run τ).2.result = .ok (.runs 3) := by
  intro σ union addAll freeze τ
  have ha : τ.runs[2]? = some ⟨.plain [⟨1, 5⟩], .bool true⟩ := by rfl
  have hu : τ.runs[3]? = some ⟨.plain [⟨1, 5⟩], .bool false⟩ := by rfl
  have hσ : σ.Reachable := ⟨_, rfl⟩
  obtain ⟨-, -, hnew, hlater, -⟩ := Step.frame_and_new hσ union
  obtain ⟨-, hmark, -, -, hadd⟩ := Step.frame_and_new (hσ.step union) addAll
  obtain ⟨-, -, -, -, hfreeze⟩ := Step.frame_and_new (hσ.step union) freeze
  refine ⟨(hnew trivial rfl).2.2, (hlater [addAll]).runs ?_ ha,
    (hmark ha ?_).resolve_right fun hturned => ?_, ((hadd rfl hu).2 rfl).2 rfl ⟨rfl, nofun⟩,
    (hfreeze rfl hu).1 rfl rfl⟩
  · rintro (hchanged | hchanged)
    · cases hchanged
    · exact hchanged
  · nofun
  · cases hturned.1

/-- Marks do not always count for the same as before. A set of `1` is the mark of an empty set; when
it is cleared, the other set is frozen no longer. -/
theorem Step.not_frame_of_mark :
    ¬ ∀ {σ : Store} {s : Step} {place : Nat} {o : StoredRuns}, σ.Reachable →
      σ.runs[place]? = some o → s.action.changed? σ ≠ some (.runs place) →
        ∃ p, (s.run σ).1.runs[place]? = some p ∧ p.runs = o.runs ∧
          (s.run σ).1.isFrozen place p = σ.isFrozen place o := by
  intro h
  let σ := Session.run .initial
    [⟨.make .range, [.int 1], some "t"⟩, ⟨.make .copy, [], some "s"⟩,
     ⟨.send "s" (.mutate .mark), [.register "t"], none⟩]
  let clear : Step := ⟨.send "t" (.mutate .clear), [], none⟩
  have ho : σ.runs[3]? = some ⟨.empty, .runs 2⟩ := by rfl
  have hafter : (clear.run σ).1.runs[3]? = some ⟨.empty, .runs 2⟩ := by rfl
  obtain ⟨p, hp, -, hsame⟩ := h (s := clear) ⟨_, rfl⟩ ho nofun
  obtain rfl := Option.some.inj (hafter.symm.trans hp)
  cases hsame

end SymbolSets
