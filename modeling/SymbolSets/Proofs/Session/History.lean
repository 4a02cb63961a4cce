import SymbolSets.Proofs.Session.Call
import SymbolSets.Proofs.Session.Canonical
import SymbolSets.Proofs.Session.Frame

/-!
# A set is determined by the last calls that touch its elements

A set is changed by calls that add integers and calls that remove some. After calls none of which is
rejected, an integer is in the set if the last call that touches it is an addition, and an integer
that no call touches is in the set if it was before.

A set that is not frozen rejects no call, unless it is its own mark: then its first element freezes
it.

## Main definitions

* `Step.call?`, `Session.calls?`: the calls on a set that the steps of a session make.
* `Call.lastTouch?`: what the last call that touches an integer does to it.

## Main results

* `Step.changes_run`: what one call does to the set.
* `Session.holds_run_iff`: what is in the set after a session of calls.
-/

namespace SymbolSets

/-- The call that a step makes on the set at `place`, if it makes one. -/
def Step.call? (s : Step) (σ : Store) (place : Nat) : Option Call :=
  match s.action, Operand.values? s.operands σ with
  | .send receiver (.mutate m), .ok (vs, τ) =>
    if τ.value? receiver = some (.runs place) then m.call? τ vs else none
  | _, _ => none

/-- The calls that steps make on the set at `place`, if each of them makes one. A step is read in
the store that the steps before it leave. -/
def Session.calls? (place : Nat) (σ : Store) : List Step → Option (List Call)
  | [] => some []
  | s :: rest =>
    match s.call? σ place, calls? place (s.run σ).1 rest with
    | some c, some cs => some (c :: cs)
    | _, _ => none

/-- Whether the last of the calls that touch `v` puts it into the set or takes it out. -/
def Call.lastTouch? (calls : List Call) (v : Int) : Option Bool :=
  calls.reverse.findSome? (Call.touch? v)

/-- Whether `v` is in the set after some calls, given whether it was before. -/
def Call.AllLeave (calls : List Call) (v : Int) (before : Prop) : Prop :=
  lastTouch? calls v = some true ∨ lastTouch? calls v = none ∧ before

theorem Call.allLeave_nil {v : Int} {before : Prop} : AllLeave [] v before ↔ before := by
  simp [AllLeave, lastTouch?]

/-- The first call comes before the others. -/
theorem Call.allLeave_cons {c : Call} {calls : List Call} {v : Int} {before : Prop} :
    AllLeave (c :: calls) v before ↔ AllLeave calls v (c.Leaves v before) := by
  rw [AllLeave, AllLeave, lastTouch?, List.reverse_cons, List.findSome?_append, ← lastTouch?]
  cases hlast : lastTouch? calls v with
  | some b => simp
  | none => simp [Leaves]

/-! ### Marks during a call -/

namespace Store

theorem isTrue_setRuns {σ : Store} {place : Nat} {o : StoredRuns} {v : Value}
    (h : v ≠ .runs place) : (σ.setRuns place o).isTrue v = σ.isTrue v := by
  cases v with
  | runs i =>
    have hne : place ≠ i := fun heq => h (congrArg Value.runs heq.symm)
    rw [isTrue, isTrue, runsAt, runsAt, setRuns, Array.getElem?_setIfInBounds_ne hne]
  | _ => rfl

theorem isTrue_bindResult (σ : Store) (into : Option String) (result : Except Fault Value)
    (v : Value) : (σ.bindResult into result).isTrue v = σ.isTrue v := by
  cases result with
  | error fault => rfl
  | ok w =>
    cases into with
    | none => rfl
    | some name => cases v <;> rfl

theorem runs_bindResult (σ : Store) (into : Option String) (result : Except Fault Value) :
    (σ.bindResult into result).runs = σ.runs := by
  cases result with
  | error fault => rfl
  | ok w =>
    cases into with
    | none => rfl
    | some name => rfl

/-- The set `o` at `place` is not frozen, and it is not its own mark either, so that it does not
freeze by what it comes to hold. -/
def Accepts (σ : Store) (place : Nat) (o : StoredRuns) : Prop :=
  σ.isFrozen place o = false ∧ o.mark ≠ .runs place

theorem isFrozen_of_mark_ne {σ : Store} {place : Nat} {o : StoredRuns} (h : o.mark ≠ .runs place) :
    σ.isFrozen place o = σ.isTrue o.mark :=
  if_neg h

end Store

/-! ### One call -/

variable {σ : Store} {place : Nat} {o : StoredRuns}

theorem Mutation.isOk_report_iff {α : Type} {m : Mutation} {receiver : Value} {effect : Effect α} :
    (m.report receiver effect).result.isOk ↔ effect.fault = none := by
  rw [report]
  cases effect.fault with
  | none => simp [Except.isOk, Except.toBool]
  | some fault => simp [Except.isOk, Except.toBool]

/-- The request and the operands of a step that makes a call. -/
theorem Step.exists_of_call? {s : Step} {c : Call} (h : s.call? σ place = some c) :
    ∃ name m vs τ, s.action = .send name (.mutate m) ∧ Operand.values? s.operands σ = .ok (vs, τ) ∧
      σ.value? name = some (.runs place) ∧ m.call? τ vs = some c := by
  rw [call?.eq_def] at h
  split at h
  case h_1 name m vs τ haction hvs =>
    split_ifs at h with hname
    have hext : σ.Extends τ := Operand.extends_of_values? hvs
    exact ⟨name, m, vs, τ, haction, hvs, (hext.value? name).symm.trans hname, h⟩
  case h_2 => cases h

/-- What a step that makes a call does. -/
theorem Step.run_of_call? (hσ : σ.Canonical) (ho : σ.runs[place]? = some o) {s : Step} {c : Call}
    (h : s.call? σ place = some c) :
    ∃ τ effect, σ.Extends τ ∧ c.Changes (τ.isFrozen place) o effect ∧
      ((s.run σ).2.result.isOk ↔ effect.fault = none) ∧
      (s.run σ).1 =
        (τ.setRuns place effect.object).bindResult s.into (s.run σ).2.result := by
  obtain ⟨name, m, vs, τ, hs, hvs, hname, hc⟩ := exists_of_call? h
  have hcanonical : o.runs.Canonical := hσ o (Array.mem_of_getElem? ho)
  have hrun := s.run_mutate hs hvs hname ho
  refine ⟨τ, _, Operand.extends_of_values? hvs, Mutation.changes_applyRuns hcanonical hc, ?_, ?_⟩
  · rw [hrun]
    exact Mutation.isOk_report_iff
  · rw [hrun]

/-- **What one call does to the set.** A call that is not rejected changes the set as it says. A set
that accepts changes does not reject the call, and it accepts changes afterwards. -/
theorem Step.changes_run (hσ : σ.Reachable) (ho : σ.runs[place]? = some o) {s : Step} {c : Call}
    (h : s.call? σ place = some c) :
    ∃ p, (s.run σ).1.runs[place]? = some p ∧
      ((s.run σ).2.result.isOk → ∀ v, p.runs.Holds v ↔ c.Leaves v (o.runs.Holds v)) ∧
      (σ.Accepts place o → (s.run σ).2.result.isOk ∧ (s.run σ).1.Accepts place p) := by
  obtain ⟨τ, effect, hext, hchanges, hok, hrun⟩ := s.run_of_call? hσ.canonical ho h
  refine ⟨effect.object, ?_, fun hresult => hchanges.holds (hok.1 hresult), fun haccepts => ?_⟩
  · have hplace : place < τ.runs.size := (Array.getElem?_eq_some_iff.1 (hext.runs ho)).1
    rw [hrun, Store.runs_bindResult, Store.setRuns, Array.getElem?_setIfInBounds_self_of_lt hplace]
  · obtain ⟨hfrozen, hmark⟩ := haccepts
    rw [Store.isFrozen_of_mark_ne hmark] at hfrozen
    have hknows : σ.Knows o.mark := hσ.closed.runs o (Array.mem_of_getElem? ho)
    have hτ : τ.isTrue o.mark = false := by rw [hext.isTrue_eq hknows, hfrozen]
    have hobject : effect.object.mark ≠ .runs place := by rwa [hchanges.mark]
    refine ⟨hok.2 (hchanges.fault fun xs => ?_), ?_, hobject⟩
    · have hwith : (o.withRuns xs).mark ≠ .runs place := hmark
      rw [Store.isFrozen_of_mark_ne hwith]
      exact hτ
    · rw [Store.isFrozen_of_mark_ne hobject, hchanges.mark, hrun, Store.isTrue_bindResult,
        Store.isTrue_setRuns hmark, hτ]

/-! ### Sessions of calls -/

namespace Session

theorem calls?_cons {s : Step} {steps : List Step} {calls : List Call}
    (h : calls? place σ (s :: steps) = some calls) :
    ∃ c cs, s.call? σ place = some c ∧ calls? place (s.run σ).1 steps = some cs ∧
      calls = c :: cs := by
  rw [calls?] at h
  split at h
  · cases h
    exact ⟨_, _, ‹_›, ‹_›, rfl⟩
  · cases h

/-- A set that accepts changes rejects none of the calls. The induction is on the steps; after each
call the set accepts changes as before. -/
theorem isOk_of_accepts (hσ : σ.Reachable) (ho : σ.runs[place]? = some o)
    (haccepts : σ.Accepts place o) {steps : List Step} {calls : List Call}
    (hcalls : calls? place σ steps = some calls) :
    ∀ after ∈ trace σ steps, after.2.result.isOk := by
  induction steps generalizing σ o calls with
  | nil => nofun
  | cons s steps ih =>
    obtain ⟨c, cs, hc, hcs, rfl⟩ := calls?_cons hcalls
    obtain ⟨p, hp, -, hkeeps⟩ := s.changes_run hσ ho hc
    obtain ⟨hok, hnext⟩ := hkeeps haccepts
    intro after hafter
    rcases List.mem_cons.1 hafter with rfl | hafter
    · exact hok
    · exact ih (hσ.step s) hp hnext hcs after hafter

/-- Calls that are not rejected change the set as they say, one after the other. -/
theorem holds_run_of_isOk (hσ : σ.Reachable) (ho : σ.runs[place]? = some o) {steps : List Step}
    {calls : List Call} (hcalls : calls? place σ steps = some calls)
    (hok : ∀ after ∈ trace σ steps, after.2.result.isOk) (v : Int) :
    ((run σ steps).runsAt place).Holds v ↔ Call.AllLeave calls v (o.runs.Holds v) := by
  induction steps generalizing σ o calls with
  | nil =>
    cases hcalls
    rw [run_nil, Store.runsAt_eq_of_getElem? ho, Call.allLeave_nil]
  | cons s steps ih =>
    obtain ⟨c, cs, hc, hcs, rfl⟩ := calls?_cons hcalls
    obtain ⟨p, hp, hchanges, -⟩ := s.changes_run hσ ho hc
    have hfirst := hchanges (hok _ List.mem_cons_self) v
    have hrest := ih (hσ.step s) hp hcs fun after hafter =>
      hok after (List.mem_cons_of_mem _ hafter)
    rw [run_cons, hrest, Call.allLeave_cons, Call.AllLeave, Call.AllLeave, hfirst]

/-- **The last call decides.** After calls that are not rejected, the set holds an integer if and
only if the last call that touches it is an addition, or no call touches it and the set held it
before. No call is rejected if the set accepts changes. -/
theorem holds_run_iff (hσ : σ.Reachable) (ho : σ.runs[place]? = some o) {steps : List Step}
    {calls : List Call} (hcalls : calls? place σ steps = some calls)
    (h : σ.Accepts place o ∨ ∀ after ∈ trace σ steps, after.2.result.isOk) :
    (∀ after ∈ trace σ steps, after.2.result.isOk) ∧
      ∀ v, ((run σ steps).runsAt place).Holds v ↔
        Call.lastTouch? calls v = some true ∨
          Call.lastTouch? calls v = none ∧ (σ.runsAt place).Holds v := by
  have hok : ∀ after ∈ trace σ steps, after.2.result.isOk :=
    h.elim (fun haccepts => isOk_of_accepts hσ ho haccepts hcalls) id
  refine ⟨hok, fun v => ?_⟩
  rw [Store.runsAt_eq_of_getElem? ho]
  exact holds_run_of_isOk hσ ho hcalls hok v

/-- Calls on a set that holds `1` and `2`: a range merges with it, an integer goes, and the set is
added to itself before a list is. -/
theorem holds_run_iff_merged :
    let σ := run .initial [⟨.make .range, [.int 1, .int 2], some "s"⟩]
    let steps : List Step :=
      [⟨.send "s" (.mutate .add), [.int 3, .int 9], none⟩,
       ⟨.send "s" (.mutate .remove), [.int 5], none⟩,
       ⟨.send "s" (.mutate .addAll), [.register "s"], none⟩,
       ⟨.send "s" (.mutate .addAll), [.list [.int 11, .bool true]], none⟩]
    let calls := [.add ⟨3, 9⟩, .remove 5, .addAll [1, 2, 3, 4, 6, 7, 8, 9], .addAll [11, 1]]
    calls? 2 σ steps = some calls ∧ (∀ after ∈ trace σ steps, after.2.result.isOk) ∧
      ∀ v, ((run σ steps).runsAt 2).Holds v ↔
        Call.lastTouch? calls v = some true ∨
          Call.lastTouch? calls v = none ∧ (σ.runsAt 2).Holds v := by
  intro σ steps calls
  have hcalls : calls? 2 σ steps = some calls := by decide +kernel +revert
  have hplace : 2 < σ.runs.size := by decide +kernel +revert
  have haccepts : σ.Accepts 2 σ.runs[2] := ⟨by decide +kernel +revert, by decide +kernel +revert⟩
  exact ⟨hcalls, holds_run_iff ⟨_, rfl⟩ (Array.getElem?_eq_getElem hplace) hcalls (.inl haccepts)⟩

/-- It is not enough that the set is not frozen at first. An empty set that is its own mark takes in
`1`, which freezes it, and then rejects `2`. -/
theorem not_holds_run_iff_of_isFrozen_eq_false :
    ¬ ∀ {σ : Store} {place : Nat} {o : StoredRuns} {steps : List Step} {calls : List Call},
      σ.Reachable → σ.runs[place]? = some o → σ.isFrozen place o = false →
        calls? place σ steps = some calls →
          ∀ v, ((run σ steps).runsAt place).Holds v ↔
            Call.lastTouch? calls v = some true ∨
              Call.lastTouch? calls v = none ∧ (σ.runsAt place).Holds v := by
  intro h
  let σ := run .initial
    [⟨.make .copy, [], some "s"⟩, ⟨.send "s" (.mutate .mark), [.register "s"], none⟩]
  let steps : List Step :=
    [⟨.send "s" (.mutate .add), [.int 1], none⟩, ⟨.send "s" (.mutate .add), [.int 2], none⟩]
  have hplace : 2 < σ.runs.size := by decide +kernel +revert
  have hcalls : calls? 2 σ steps = some [.add ⟨1, 1⟩, .add ⟨2, 2⟩] := by decide +kernel +revert
  have htwo := h ⟨_, rfl⟩ (Array.getElem?_eq_getElem hplace) (by decide +kernel +revert) hcalls 2
  have hmissing : ¬ ((run σ steps).runsAt 2).Holds 2 := by decide +kernel +revert
  exact hmissing (htwo.2 (.inl (by decide)))

end Session

end SymbolSets
