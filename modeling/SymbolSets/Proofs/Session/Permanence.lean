import SymbolSets.Proofs.Session.Frame
import SymbolSets.Proofs.Session.History

/-!
# Frozen sets stay as they are

A set is frozen while its mark counts as true. No step changes what a frozen set holds, for each
request for a change asks for the mark before it writes, and no other request reaches the set. Its
mark can only be replaced by one that counts as true.

A mark that is no list and no set counts for the same forever, and a set that is its own mark cannot
be emptied once it is frozen. Every other mark may be emptied by a step that is sent to it, and then
the set is frozen no longer.

## Main definitions

* `Step.Freezes`: a step that freezes a set.
* `Step.EmptiesMark`, `Session.KeepsMark`: the steps that end the freezing of a set, and sessions
  without them.
* `Value.IsPlain`, `Session.MarksPlainly`: the marks that cannot be emptied.

## Main results

* `Step.frozen_run`: what one step does to a frozen set.
* `Session.frozen_of_mem_trace`: what a session does to a frozen set.
* `Session.keepsMark_of_marksPlainly`: sessions in which no list and no set is a mark.
* `Session.frozen_for_good`: frozen sets, the predefined sets, and copies of sets.
-/

namespace SymbolSets

variable {σ : Store} {place : Nat} {o : StoredRuns}

/-! ### Requests to a frozen set -/

namespace StoredRuns

variable {isFrozen : StoredRuns → Bool}

theorem object_addEach_of_isFrozen (h : isFrozen o = true) :
    (count : Nat) → (added : Additions) → (o.addEach isFrozen count added).object = o
  | 0, _ => rfl
  | count + 1, added => by
    rw [addEach]
    split
    · rfl
    · rfl
    · rw [if_pos h]
      rfl

/-- A mark that counts as true is always taken. -/
theorem assignMark_of_isFrozen {v : Value} (h : isFrozen { o with mark := v } = true) :
    o.assignMark isFrozen v =
      ⟨{ o with mark := v }, if isFrozen o then [] else [.freezing (o.description false)],
        none⟩ := by
  rw [assignMark]
  cases isFrozen o with
  | true => simp [h, Effect.done]
  | false => simp [h]

/-- A mark that does not count as true is refused by a frozen set. -/
theorem assignMark_of_not_isFrozen {v : Value} (ho : isFrozen o = true)
    (h : isFrozen { o with mark := v } = false) :
    o.assignMark isFrozen v = ⟨o, [.refused (o.description true)], some .markKept⟩ := by
  rw [assignMark]
  simp [ho, h]

theorem object_assignMark (ho : isFrozen o = true) (v : Value) :
    (o.assignMark isFrozen v).object = o ∨
      (o.assignMark isFrozen v).object = { o with mark := v } ∧
        isFrozen { o with mark := v } = true := by
  cases h : isFrozen { o with mark := v } with
  | true => exact .inr ⟨by rw [assignMark_of_isFrozen h], rfl⟩
  | false => exact .inl (by rw [assignMark_of_not_isFrozen ho h])

end StoredRuns

/-- **What a request for a change leaves of a frozen set:** the set as it is, but for a mark that
keeps it frozen. -/
theorem Mutation.Outcome.object_of_isFrozen {m : Mutation} {isFrozen : StoredRuns → Bool}
    {vs : List Value} {effect : Effect StoredRuns} (h : m.Outcome σ isFrozen o vs effect)
    (ho : isFrozen o = true) :
    effect.object = o ∨
      ∃ v, effect.object = { o with mark := v } ∧ isFrozen { o with mark := v } = true := by
  cases h with
  | refused | rejected | unlisted => exact .inl rfl
  | add | addAll => exact .inl (StoredRuns.object_addEach_of_isFrozen ho _ _)
  | remove v hfrozen => exact absurd ho (Bool.eq_false_iff.1 hfrozen)
  | clear hfrozen => exact absurd ho (Bool.eq_false_iff.1 hfrozen)
  | freeze | mark => exact (StoredRuns.object_assignMark ho _).imp_right fun h => ⟨_, h⟩

/-! ### Plain marks -/

/-- The value is no list and no set, and so it counts for the same in all stores. -/
def Value.IsPlain : Value → Prop
  | .runs _ | .enumerated _ | .list _ => False
  | _ => True

theorem Store.isTrue_eq_of_isPlain {v : Value} (hv : v.IsPlain) (σ τ : Store) :
    τ.isTrue v = σ.isTrue v := by
  cases v with
  | runs place => cases hv
  | enumerated place => cases hv
  | list place => cases hv
  | _ => rfl

/-! ### Frozen sets in changed stores -/

namespace Store

/-- Whether a set is frozen does not depend on what its place held before. -/
theorem isFrozen_setRuns (σ : Store) (place : Nat) (o : StoredRuns) :
    (σ.setRuns place o).isFrozen place o = σ.isFrozen place o := by
  rw [isFrozen, isFrozen]
  split_ifs with hself
  · rfl
  · exact isTrue_setRuns hself

theorem isFrozen_bindResult (σ : Store) (into : Option String) (result : Except Fault Value)
    (place : Nat) (o : StoredRuns) :
    (σ.bindResult into result).isFrozen place o = σ.isFrozen place o := by
  rw [isFrozen, isFrozen, isTrue_bindResult]

theorem Extends.isFrozen_eq {τ : Store} (h : σ.Extends τ) (hσ : σ.Closed)
    (ho : σ.runs[place]? = some o) : τ.isFrozen place o = σ.isFrozen place o := by
  rw [isFrozen_eq_isTrue (h.runs ho), isFrozen_eq_isTrue ho,
    h.isTrue_eq (hσ.runs o (Array.mem_of_getElem? ho))]

/-- A set that is written back to its place is found there. -/
theorem getElem?_setRuns (ho : σ.runs[place]? = some o) (p : StoredRuns) :
    (σ.setRuns place p).runs[place]? = some p :=
  Array.getElem?_setIfInBounds_self_of_lt (Array.getElem?_eq_some_iff.1 ho).1

end Store

/-- What is stored after a request for a change, and whether it is frozen. -/
theorem Step.stored_run_mutate {s : Step} {τ : Store} {name : String} {m : Mutation}
    {vs : List Value} (hs : s.action = .send name (.mutate m))
    (hvs : Operand.values? s.operands σ = .ok (vs, τ))
    (hname : σ.value? name = some (.runs place)) (ho : σ.runs[place]? = some o) :
    let p := (m.applyRuns τ (τ.isFrozen place) o vs).object
    (s.run σ).1.runs[place]? = some p ∧ (s.run σ).1.isFrozen place p = τ.isFrozen place p := by
  have hext : σ.Extends τ := Operand.extends_of_values? hvs
  rw [s.run_mutate hs hvs hname ho]
  exact ⟨by rw [Store.runs_bindResult, Store.getElem?_setRuns (hext.runs ho)],
    by rw [Store.isFrozen_bindResult, Store.isFrozen_setRuns]⟩

/-! ### One step -/

/-- The step freezes the set at `place`: it is sent the request to freeze, or it is given a mark
that counts as true. -/
def Step.Freezes (s : Step) (σ : Store) (place : Nat) : Prop :=
  ∃ name vs τ, σ.value? name = some (.runs place) ∧ Operand.values? s.operands σ = .ok (vs, τ) ∧
    (s.action = .send name (.mutate .freeze) ∧ vs = [] ∨
      s.action = .send name (.mutate .mark) ∧ ∃ v, vs = [v] ∧ τ.isTrue v = true)

/-- The step empties the list or the other set that is the mark of the set at `place`. -/
def Step.EmptiesMark (s : Step) (σ : Store) (place : Nat) : Prop :=
  ∃ o ∈ σ.runs[place]?, o.mark ≠ .runs place ∧ s.action.changed? σ = some o.mark ∧
    (s.run σ).1.isTrue o.mark = false

instance (s : Step) (σ : Store) (place : Nat) : Decidable (s.EmptiesMark σ place) :=
  inferInstanceAs (Decidable (∃ o ∈ σ.runs[place]?, _))

/-- A step that freezes a set leaves it frozen, and leaves what it holds. -/
theorem Step.frozen_run_of_freezes {s : Step} (ho : σ.runs[place]? = some o)
    (h : s.Freezes σ place) :
    ∃ p, (s.run σ).1.runs[place]? = some p ∧ p.runs = o.runs ∧
      (s.run σ).1.isFrozen place p = true := by
  obtain ⟨name, vs, τ, hname, hvs, h⟩ := h
  have hext : σ.Extends τ := Operand.extends_of_values? hvs
  -- Both requests assign a mark `v` that makes the set frozen.
  obtain ⟨m, v, hs, hm, hv⟩ : ∃ m v, s.action = .send name (.mutate m) ∧
      m.applyRuns τ (τ.isFrozen place) o vs = o.assignMark (τ.isFrozen place) v ∧
        τ.isFrozen place { o with mark := v } = true := by
    rcases h with ⟨hs, rfl⟩ | ⟨hs, v, rfl, hv⟩
    · exact ⟨.freeze, .bool true, hs, rfl, rfl⟩
    · refine ⟨.mark, v, hs, rfl, ?_⟩
      rw [Store.isFrozen]
      split_ifs with hself
      · obtain rfl : v = .runs place := hself
        rwa [Store.isTrue, Store.runsAt_eq_of_getElem? (hext.runs ho)] at hv
      · exact hv
  obtain ⟨hp, hfrozen⟩ := s.stored_run_mutate hs hvs hname ho
  rw [hm, StoredRuns.assignMark_of_isFrozen hv] at hp hfrozen
  exact ⟨_, hp, rfl, hfrozen.trans hv⟩

/-- **What one step does to a frozen set.** It never changes what the set holds, and the set stays
frozen unless the step empties its mark. -/
theorem Step.frozen_run (s : Step) (hσ : σ.Closed) (ho : σ.runs[place]? = some o)
    (hfrozen : σ.isFrozen place o = true) :
    ∃ p, (s.run σ).1.runs[place]? = some p ∧ p.runs = o.runs ∧
      (s.EmptiesMark σ place ∨ (s.run σ).1.isFrozen place p = true) := by
  by_cases hplace : s.action.changed? σ = some (.runs place)
  · -- The step is sent to the set itself, which takes no change but that of its mark.
    rcases s.run_of_changed? hplace ho with ⟨fault, -, hrun⟩ | ⟨name, m, vs, τ, hs, hvs, hext, -⟩
    · rw [hrun]
      exact ⟨o, ho, rfl, .inr hfrozen⟩
    · have hname : σ.value? name = some (.runs place) := by rwa [hs] at hplace
      have hτ : τ.isFrozen place o = true := by rw [hext.isFrozen_eq hσ ho, hfrozen]
      obtain ⟨hp, hpFrozen⟩ := s.stored_run_mutate hs hvs hname ho
      rcases (Mutation.applyRuns_outcome _ _ _ _ vs).object_of_isFrozen hτ with heq | ⟨v, heq, hv⟩
      · rw [heq] at hp hpFrozen
        exact ⟨o, hp, rfl, .inr (hpFrozen.trans hτ)⟩
      · rw [heq] at hp hpFrozen
        exact ⟨_, hp, rfl, .inr (hpFrozen.trans hv)⟩
  · -- The set is left alone, and so is its mark unless the step is sent to it.
    have hstays := (s.frame σ).runs hplace ho
    refine ⟨o, hstays, rfl, ?_⟩
    rw [Store.isFrozen_eq_isTrue hstays]
    by_cases hmark : s.action.changed? σ = some o.mark
    · cases htrue : (s.run σ).1.isTrue o.mark with
      | true => exact .inr rfl
      | false => exact .inl ⟨o, ho, fun hself => hplace (hself ▸ hmark), hmark, htrue⟩
    · right
      rw [(s.frame σ).isTrue_eq (hσ.runs o (Array.mem_of_getElem? ho)) hmark,
        ← Store.isFrozen_eq_isTrue ho, hfrozen]

/-- A mark that is no list and no set cannot be emptied. -/
theorem Step.not_emptiesMark_of_isPlain (s : Step) (ho : σ.runs[place]? = some o)
    (hfrozen : σ.isFrozen place o = true) (hplain : o.mark.IsPlain) : ¬ s.EmptiesMark σ place := by
  rintro ⟨p, hp, -, -, hfalse⟩
  obtain rfl : o = p := Option.some.inj (ho.symm.trans hp)
  have hsame := Store.isTrue_eq_of_isPlain hplain σ (s.run σ).1
  rw [Store.isFrozen_eq_isTrue ho, ← hsame, hfalse] at hfrozen
  cases hfrozen

/-! ### Sessions -/

namespace Session

/-- No step of the session empties the list or the other set that is the mark of the set at `place`
by then. -/
def KeepsMark (place : Nat) : Store → List Step → Prop
  | _, [] => True
  | σ, s :: rest => ¬ s.EmptiesMark σ place ∧ KeepsMark place (s.run σ).1 rest

instance decidableKeepsMark (place : Nat) : (σ : Store) → (steps : List Step) →
    Decidable (KeepsMark place σ steps)
  | _, [] => .isTrue trivial
  | σ, s :: rest =>
    have := decidableKeepsMark place (s.run σ).1 rest
    inferInstanceAs (Decidable (_ ∧ _))

/-- **What a session does to a frozen set.** It holds the same after every step and stays frozen, if
no step empties its mark. The induction is on the steps. -/
theorem frozen_of_mem_trace (hσ : σ.Closed) (ho : σ.runs[place]? = some o)
    (hfrozen : σ.isFrozen place o = true) {steps : List Step} (hsteps : KeepsMark place σ steps)
    {after : Store × Report} (hafter : after ∈ trace σ steps) :
    ∃ p, after.1.runs[place]? = some p ∧ p.runs = o.runs ∧ after.1.isFrozen place p = true := by
  induction steps generalizing σ o with
  | nil => cases hafter
  | cons s steps ih =>
    obtain ⟨hkeeps, hrest⟩ := hsteps
    obtain ⟨p, hp, hruns, hp'⟩ := s.frozen_run hσ ho hfrozen
    have hpFrozen := hp'.resolve_left hkeeps
    rcases List.mem_cons.1 hafter with rfl | hafter
    · exact ⟨p, hp, hruns, hpFrozen⟩
    · obtain ⟨q, hq, hqRuns, hqFrozen⟩ := ih (s.closed_run hσ) hp hpFrozen hrest hafter
      exact ⟨q, hq, hqRuns.trans hruns, hqFrozen⟩

/-- The mark of the set at `place` is no list and no set before each step of the session. -/
def MarksPlainly (place : Nat) : Store → List Step → Prop
  | _, [] => True
  | σ, s :: rest => (∀ o ∈ σ.runs[place]?, o.mark.IsPlain) ∧ MarksPlainly place (s.run σ).1 rest

/-- **A frozen set keeps its mark if this is never a list or a set.** The induction is on the
steps. -/
theorem keepsMark_of_marksPlainly (hσ : σ.Closed) (ho : σ.runs[place]? = some o)
    (hfrozen : σ.isFrozen place o = true) {steps : List Step} (h : MarksPlainly place σ steps) :
    KeepsMark place σ steps := by
  induction steps generalizing σ o with
  | nil => trivial
  | cons s steps ih =>
    obtain ⟨hplain, hrest⟩ := h
    have hkeeps : ¬ s.EmptiesMark σ place := s.not_emptiesMark_of_isPlain ho hfrozen (hplain o ho)
    obtain ⟨p, hp, -, hp'⟩ := s.frozen_run hσ ho hfrozen
    exact ⟨hkeeps, ih (s.closed_run hσ) hp (hp'.resolve_left hkeeps) hrest⟩

/-- A copy of a set holds the same and has no mark. -/
theorem run_copy {name : String} (hname : σ.value? name = some (.runs place))
    (ho : σ.runs[place]? = some o) (into : Option String) :
    (Step.run ⟨.make .copy, [.register name], into⟩ σ).2.result = .ok (.runs σ.runs.size) ∧
      (Step.run ⟨.make .copy, [.register name], into⟩ σ).1.runs[σ.runs.size]? =
        some ⟨o.toSpelledRuns, .bool false⟩ := by
  have hvs : Operand.values? [.register name] σ = .ok ([.runs place], σ) := by
    simp only [Operand.values?, Operand.value?, hname]
    rfl
  have hcopy : Maker.make σ .copy [.runs place] = .ok (.runs o.toSpelledRuns) := by
    rw [Maker.make, Store.runs?, Store.spelledAt_eq_of_getElem? ho]
    rfl
  constructor
  · simp only [Step.run, Step.perform, hvs, Step.act, hcopy]
    rfl
  · simp only [Step.run, Step.perform, hvs, Step.act, hcopy, Store.runs_bindResult]
    simp [Except.map, Store.produce, Store.enter, Store.addRuns]

/-- **A frozen set stays as it is.** A step that freezes a set leaves it frozen. No step changes
what a frozen set holds, and it stays frozen in every session that does not empty the list or the
other set that is its mark. So do the two predefined sets. A copy of a set holds the same and is not
frozen. -/
theorem frozen_for_good (hσ : σ.Reachable) (ho : σ.runs[place]? = some o) :
    (∀ s : Step, s.Freezes σ place → ∃ p, (s.run σ).1.runs[place]? = some p ∧ p.runs = o.runs ∧
      (s.run σ).1.isFrozen place p = true) ∧
    (σ.isFrozen place o = true →
      (∀ s : Step, ∃ p, (s.run σ).1.runs[place]? = some p ∧ p.runs = o.runs) ∧
      ∀ steps, KeepsMark place σ steps → ∀ after ∈ trace σ steps,
        ∃ p, after.1.runs[place]? = some p ∧ p.runs = o.runs ∧
          after.1.isFrozen place p = true) ∧
    (∀ steps, ∀ after ∈ trace .initial steps,
      (KeepsMark 0 .initial steps → after.1.runsAt 0 = []) ∧
      (KeepsMark Store.characterPlace .initial steps →
        after.1.runsAt Store.characterPlace = [⟨0, 0x10FFFF⟩])) ∧
    ∀ name into, σ.value? name = some (.runs place) →
      let copied := Step.run ⟨.make .copy, [.register name], into⟩ σ
      copied.2.result = .ok (.runs σ.runs.size) ∧
        ∃ p, copied.1.runs[σ.runs.size]? = some p ∧ p.runs = o.runs ∧
          copied.1.isFrozen σ.runs.size p = false := by
  refine ⟨fun s hs => s.frozen_run_of_freezes ho hs, fun hfrozen => ⟨fun s => ?_,
    fun steps hsteps after hafter => frozen_of_mem_trace hσ.closed ho hfrozen hsteps hafter⟩,
    fun steps after hafter => ⟨fun hsteps => ?_, fun hsteps => ?_⟩, fun name into hname => ?_⟩
  · obtain ⟨p, hp, hruns, -⟩ := s.frozen_run hσ.closed ho hfrozen
    exact ⟨p, hp, hruns⟩
  · have hempty : Store.initial.runs[0]? = some Store.emptySet := rfl
    obtain ⟨p, hp, hruns, -⟩ := frozen_of_mem_trace Store.closed_initial hempty rfl hsteps hafter
    rw [Store.runsAt_eq_of_getElem? hp, hruns]
    rfl
  · have hall : Store.initial.runs[Store.characterPlace]? = some Store.characterSet := rfl
    obtain ⟨p, hp, hruns, -⟩ := frozen_of_mem_trace Store.closed_initial hall rfl hsteps hafter
    rw [Store.runsAt_eq_of_getElem? hp, hruns]
    rfl
  · obtain ⟨hresult, hcopied⟩ := run_copy hname ho into
    exact ⟨hresult, _, hcopied, rfl, rfl⟩

/-- A frozen set is given another mark, and then rejects an addition and the removal of its mark. -/
theorem frozen_for_good_rejecting :
    let σ := run .initial
      [⟨.make .range, [.int 1, .int 5], some "s"⟩, ⟨.send "s" (.mutate .freeze), [], none⟩]
    let again : Step := ⟨.send "s" (.mutate .mark), [.list [.nothing]], none⟩
    let steps : List Step :=
      [again, ⟨.send "s" (.mutate .add), [.int 9], none⟩,
       ⟨.send "s" (.mutate .mark), [.bool false], none⟩,
       ⟨.send "EMPTY_SET" (.mutate .addAll), [.register "COMPLETE_CHAR_SET"], none⟩]
    (∃ p, (again.run σ).1.runs[2]? = some p ∧ p.runs = [⟨1, 5⟩] ∧
      (again.run σ).1.isFrozen 2 p = true) ∧
    (∀ after ∈ trace σ steps, ∃ p, after.1.runs[2]? = some p ∧ p.runs = [⟨1, 5⟩] ∧
      after.1.isFrozen 2 p = true) ∧
    (∀ after ∈ trace .initial steps,
      after.1.runsAt 0 = [] ∧ after.1.runsAt Store.characterPlace = [⟨0, 0x10FFFF⟩]) ∧
    ∃ p, (Step.run ⟨.make .copy, [.register "s"], none⟩ σ).1.runs[3]? = some p ∧
      p.runs = [⟨1, 5⟩] := by
  intro σ again steps
  have hkept : KeepsMark 2 σ steps := by decide +kernel +revert
  have hempty : KeepsMark 0 .initial steps := by decide +kernel +revert
  have hall : KeepsMark Store.characterPlace .initial steps := by decide +kernel +revert
  have ho : σ.runs[2]? = some ⟨.plain [⟨1, 5⟩], .bool true⟩ := by rfl
  have hagain : again.Freezes σ 2 :=
    ⟨"s", _, _, rfl, rfl, .inr ⟨rfl, _, rfl, rfl⟩⟩
  obtain ⟨hfreezes, hfrozen, hpredefined, hcopy⟩ := frozen_for_good ⟨_, rfl⟩ ho
  refine ⟨hfreezes again hagain, (hfrozen rfl).2 steps hkept, fun after hafter => ?_, ?_⟩
  · exact ⟨(hpredefined steps after hafter).1 hempty, (hpredefined steps after hafter).2 hall⟩
  · obtain ⟨-, p, hp, hruns, -⟩ := hcopy "s" none rfl
    exact ⟨p, hp, hruns⟩

/-- It is not enough that the set is frozen once. A set of `1` is the mark of a set of `5`; when it
is cleared, the other set takes in `6`. -/
theorem not_frozen_for_good_of_emptiesMark :
    ¬ ∀ {σ : Store} {place : Nat} {o : StoredRuns} {steps : List Step},
      σ.Reachable → σ.runs[place]? = some o → σ.isFrozen place o = true →
        ∀ after ∈ trace σ steps, ∃ p, after.1.runs[place]? = some p ∧ p.runs = o.runs ∧
          after.1.isFrozen place p = true := by
  intro h
  let σ := run .initial
    [⟨.make .range, [.int 1], some "t"⟩, ⟨.make .range, [.int 5], some "s"⟩,
     ⟨.send "s" (.mutate .mark), [.register "t"], none⟩]
  let steps : List Step :=
    [⟨.send "t" (.mutate .clear), [], none⟩, ⟨.send "s" (.mutate .add), [.int 6], none⟩]
  have hlast : 1 < (trace σ steps).length := by decide
  have hnow : (trace σ steps)[1].1.runsAt 3 = [⟨5, 6⟩] := by decide +kernel +revert
  have ho : σ.runs[3]? = some ⟨.plain [⟨5, 5⟩], .runs 2⟩ := by rfl
  obtain ⟨p, hp, hruns, -⟩ := h ⟨_, rfl⟩ ho rfl _ (List.getElem_mem hlast)
  rw [Store.runsAt_eq_of_getElem? hp, hruns] at hnow
  cases hnow

end Session

end SymbolSets
