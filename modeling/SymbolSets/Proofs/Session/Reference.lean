import SymbolSets.Proofs.Session.Change
import SymbolSets.Proofs.Session.Outcome

/-!
# Registers and marks name stored objects

A place is given to an object when it is stored, and no object is ever taken away. So what a
register or a mark names is there, at every moment of every session, and a store that is merely
extended changes nothing about the worth of a mark.

## Main definitions

* `Store.Knows`: the store holds the object that a value names.
* `Store.Closed`: the store knows the values of its registers and its marks.

## Main results

* `Store.Reachable.closed`: every store that a session leads to is closed.
* `Store.Extends.isTrue_eq`: new objects do not change what a known value counts as.
-/

namespace SymbolSets

/-- The value names no object, or one that is stored. -/
def Store.Knows (σ : Store) : Value → Prop
  | .runs place => place < σ.runs.size
  | .enumerated place => place < σ.elements.size
  | .list place | .failing place => place < σ.lists.size
  | .vocabulary place => place < σ.vocabularies.size
  | _ => True

/-- If a product is at hand, it is known. What is new names nothing that was there before. -/
def Product.Known (σ : Store) : Product → Prop
  | .value v => σ.Knows v
  | .items _ | .contents _ => True

/-- The store knows the values of its registers and all marks, and it holds the vocabulary without
names. -/
structure Store.Closed (σ : Store) : Prop where
  registers : ∀ r ∈ σ.registers, σ.Knows r.2
  runs : ∀ o ∈ σ.runs, σ.Knows o.mark
  elements : ∀ o ∈ σ.elements, ∀ v ∈ o.mark, σ.Knows v
  vocabularies : ∀ o ∈ σ.vocabularies, ∀ v ∈ o.mark, σ.Knows v
  emptyVocabulary : σ.Knows (.vocabulary emptyVocabularyPlace)

namespace Store

/-! ### What stays known -/

/-- An array that keeps its items in their places is no shorter. -/
private theorem lt_size_of_getElem? {α : Type} {xs ys : Array α} {i : Nat}
    (h : ∀ {x}, xs[i]? = some x → ys[i]? = some x) (hi : i < xs.size) : i < ys.size :=
  (Array.getElem?_eq_some_iff.1 (h (Array.getElem?_eq_getElem hi))).1

theorem Extends.knows {σ τ : Store} (h : σ.Extends τ) {v : Value} (hv : σ.Knows v) :
    τ.Knows v := by
  cases v with
  | runs place => exact lt_size_of_getElem? h.runs hv
  | enumerated place => exact lt_size_of_getElem? h.elements hv
  | list place | failing place => exact lt_size_of_getElem? h.lists hv
  | vocabulary place => exact lt_size_of_getElem? h.vocabularies hv
  | _ => trivial

theorem knows_ofBound {σ : Store} (b : Bound) : σ.Knows (.ofBound b) := by
  cases b <;> trivial

/-- **New objects do not change what a known value counts as.** -/
theorem Extends.isTrue_eq {σ τ : Store} (h : σ.Extends τ) {v : Value} (hv : σ.Knows v) :
    τ.isTrue v = σ.isTrue v := by
  cases v with
  | runs place =>
    rw [isTrue, isTrue, h.runsAt_eq hv]
  | enumerated place =>
    have ho := Array.getElem?_eq_getElem hv
    rw [isTrue, isTrue, elementsAt, elementsAt, ho, h.elements ho]
  | list place =>
    have ho := Array.getElem?_eq_getElem hv
    rw [isTrue, isTrue, listAt, listAt, ho, h.lists ho]
  | _ => rfl

theorem knows_setRuns {σ : Store} {place : Nat} {o : StoredRuns} {v : Value} :
    (σ.setRuns place o).Knows v ↔ σ.Knows v := by
  cases v with
  | runs i => simp [Knows, setRuns]
  | _ => rfl

theorem knows_setElements {σ : Store} {place : Nat} {o : StoredElements} {v : Value} :
    (σ.setElements place o).Knows v ↔ σ.Knows v := by
  cases v with
  | enumerated i => simp [Knows, setElements]
  | _ => rfl

theorem knows_setList {σ : Store} {place : Nat} {vs : List Value} {v : Value} :
    (σ.setList place vs).Knows v ↔ σ.Knows v := by
  cases v with
  | list i | failing i => simp [Knows, setList]
  | _ => rfl

theorem knows_markVocabulary {σ : Store} {place : Nat} {mark v : Value} :
    (σ.markVocabulary place mark).Knows v ↔ σ.Knows v := by
  cases v with
  | vocabulary i => simp [Knows, markVocabulary]
  | _ => rfl

theorem knows_addRuns (σ : Store) (xs : SpelledRuns) :
    (σ.addRuns xs).2.Knows (σ.addRuns xs).1 := by
  simp [addRuns, Knows]

theorem knows_addElements (σ : Store) (es : Enumerated) :
    (σ.addElements es).2.Knows (σ.addElements es).1 := by
  simp [addElements, Knows]

theorem knows_addList (σ : Store) (vs : List Value) :
    (σ.addList vs).2.Knows (σ.addList vs).1 := by
  simp [addList, Knows]

theorem knows_addFailing (σ : Store) (vs : List Value) :
    (σ.addFailing vs).2.Knows (σ.addFailing vs).1 := by
  simp [addFailing, Knows]

theorem knows_addVocabulary (σ : Store) (w : Vocabulary) :
    (σ.addVocabulary w).2.Knows (σ.addVocabulary w).1 := by
  simp [addVocabulary, Knows]

/-! ### What keeps a store closed -/

namespace Closed

variable {σ : Store}

/-- A store is closed if it knows all that a closed store knows, and the values of its registers and
its marks come from there or are known. -/
theorem mono {τ : Store} (h : σ.Closed) (hknows : ∀ {v}, σ.Knows v → τ.Knows v)
    (hregisters : ∀ r ∈ τ.registers, r ∈ σ.registers ∨ τ.Knows r.2)
    (hruns : ∀ o ∈ τ.runs, o ∈ σ.runs ∨ τ.Knows o.mark)
    (helements : ∀ o ∈ τ.elements, o ∈ σ.elements ∨ ∀ v ∈ o.mark, τ.Knows v)
    (hvocabularies : ∀ o ∈ τ.vocabularies, o ∈ σ.vocabularies ∨ ∀ v ∈ o.mark, τ.Knows v) :
    τ.Closed where
  registers r hr := (hregisters r hr).elim (fun hr => hknows (h.registers r hr)) id
  runs o ho := (hruns o ho).elim (fun ho => hknows (h.runs o ho)) id
  elements o ho :=
    (helements o ho).elim (fun ho v hv => hknows (h.elements o ho v hv)) id
  vocabularies o ho :=
    (hvocabularies o ho).elim (fun ho v hv => hknows (h.vocabularies o ho v hv)) id
  emptyVocabulary := hknows h.emptyVocabulary

theorem addRuns (h : σ.Closed) (xs : SpelledRuns) : (σ.addRuns xs).2.Closed := by
  refine h.mono (extends_addRuns σ xs).knows (fun _ => .inl) ?_ (fun _ => .inl) fun _ => .inl
  intro o ho
  rcases Array.mem_push.1 ho with ho | rfl
  · exact .inl ho
  · exact .inr trivial

theorem addElements (h : σ.Closed) (es : Enumerated) : (σ.addElements es).2.Closed := by
  refine h.mono (extends_addElements σ es).knows (fun _ => .inl) (fun _ => .inl) ?_ fun _ => .inl
  intro o ho
  rcases Array.mem_push.1 ho with ho | rfl
  · exact .inl ho
  · exact .inr nofun

theorem addList (h : σ.Closed) (vs : List Value) : (σ.addList vs).2.Closed :=
  h.mono (extends_addList σ vs).knows (fun _ => .inl) (fun _ => .inl) (fun _ => .inl)
    fun _ => .inl

theorem addFailing (h : σ.Closed) (vs : List Value) : (σ.addFailing vs).2.Closed :=
  h.mono (extends_addFailing σ vs).knows (fun _ => .inl) (fun _ => .inl) (fun _ => .inl)
    fun _ => .inl

theorem addVocabulary (h : σ.Closed) (w : Vocabulary) : (σ.addVocabulary w).2.Closed := by
  refine h.mono (extends_addVocabulary σ w).knows (fun _ => .inl) (fun _ => .inl)
    (fun _ => .inl) ?_
  intro o ho
  rcases Array.mem_push.1 ho with ho | rfl
  · exact .inl ho
  · exact .inr nofun

theorem setRuns (h : σ.Closed) {o : StoredRuns} (ho : σ.Knows o.mark) (place : Nat) :
    (σ.setRuns place o).Closed := by
  refine h.mono knows_setRuns.2 (fun _ => .inl) ?_ (fun _ => .inl) fun _ => .inl
  intro p hp
  rcases Array.mem_or_eq_of_mem_setIfInBounds hp with hp | rfl
  · exact .inl hp
  · exact .inr (knows_setRuns.2 ho)

theorem setElements (h : σ.Closed) {o : StoredElements} (ho : ∀ v ∈ o.mark, σ.Knows v)
    (place : Nat) : (σ.setElements place o).Closed := by
  refine h.mono knows_setElements.2 (fun _ => .inl) (fun _ => .inl) ?_ fun _ => .inl
  intro p hp
  rcases Array.mem_or_eq_of_mem_setIfInBounds hp with hp | rfl
  · exact .inl hp
  · exact .inr fun v hv => knows_setElements.2 (ho v hv)

theorem setList (h : σ.Closed) (place : Nat) (vs : List Value) : (σ.setList place vs).Closed :=
  h.mono knows_setList.2 (fun _ => .inl) (fun _ => .inl) (fun _ => .inl) fun _ => .inl

theorem markVocabulary (h : σ.Closed) {mark : Value} (hmark : σ.Knows mark) (place : Nat) :
    (σ.markVocabulary place mark).Closed := by
  refine h.mono knows_markVocabulary.2 (fun _ => .inl) (fun _ => .inl) (fun _ => .inl) ?_
  intro o ho
  obtain ⟨i, hi, rfl⟩ := Array.mem_iff_getElem.1 ho
  simp only [Store.markVocabulary, Array.getElem_modify]
  split_ifs with hplace
  · refine .inr fun v hv => ?_
    cases hv
    exact knows_markVocabulary.2 hmark
  · exact .inl (Array.getElem_mem _)

theorem mem_bindIn {name : String} {v : Value} {rs : List (String × Value)} {r : String × Value}
    (h : r ∈ bindIn name v rs) : r ∈ rs ∨ r.2 = v := by
  induction rs with
  | nil =>
    rw [bindIn, List.mem_singleton] at h
    exact .inr (congrArg Prod.snd h)
  | cons s rs ih =>
    rw [bindIn] at h
    split_ifs at h with hname
    · rcases List.mem_cons.1 h with rfl | h
      · exact .inr rfl
      · exact .inl (List.mem_cons_of_mem s h)
    · rcases List.mem_cons.1 h with rfl | h
      · exact .inl List.mem_cons_self
      · exact (ih h).imp_left (List.mem_cons_of_mem s)

theorem bind (h : σ.Closed) {v : Value} (hv : σ.Knows v) (name : String) :
    (σ.bind name v).Closed := by
  refine h.mono id ?_ (fun _ => .inl) (fun _ => .inl) fun _ => .inl
  intro r hr
  rcases mem_bindIn hr with hr | rfl
  · exact .inl hr
  · exact .inr hv

theorem bindResult (h : σ.Closed) (into : Option String) {result : Except Fault Value}
    (hresult : ∀ v, result = .ok v → σ.Knows v) : (σ.bindResult into result).Closed := by
  cases result with
  | error fault => exact h
  | ok v =>
    cases into with
    | none => exact h
    | some name => exact h.bind (hresult v rfl) name

/-- What a register names is stored. -/
theorem value? (h : σ.Closed) {name : String} {v : Value} (hv : σ.value? name = some v) :
    σ.Knows v := by
  obtain ⟨l₁, l₂, heq, -⟩ := List.lookup_eq_some_iff.1 hv
  exact h.registers (name, v) (by simp [heq])

/-- What is new in a product is stored. -/
theorem enter (h : σ.Closed) {p : Product} (hp : p.Known σ) :
    (σ.enter p).2.Closed ∧ (σ.enter p).2.Knows (σ.enter p).1 := by
  cases p with
  | value v => exact ⟨h, hp⟩
  | items vs => exact ⟨h.addList vs, knows_addList σ vs⟩
  | contents c =>
    cases c with
    | runs xs => exact ⟨h.addRuns xs, knows_addRuns σ xs⟩
    | enumerated es => exact ⟨h.addElements es, knows_addElements σ es⟩

end Closed

theorem closed_initial : initial.Closed where
  registers r hr := by
    rcases hr with _ | ⟨_, _ | ⟨_, h⟩⟩
    · exact Nat.zero_lt_two
    · exact Nat.one_lt_two
    · cases h
  runs o ho := by
    rcases Array.mem_toList_iff.2 ho with _ | ⟨_, _ | ⟨_, h⟩⟩
    · trivial
    · trivial
    · cases h
  elements o ho := by cases Array.mem_toList_iff.2 ho
  vocabularies o ho v hv := by
    rcases Array.mem_toList_iff.2 ho with _ | ⟨_, h⟩
    · cases hv
    · cases h
  emptyVocabulary := Nat.zero_lt_one

theorem keptByReading_closed : KeptByReading Closed where
  addRuns xs h := h.addRuns (.ofSpans xs)
  addElements _ h := h.addElements _
  addList vs h := h.addList vs
  addFailing vs h := h.addFailing vs
  addVocabulary w h := h.addVocabulary w

end Store

/-! ### What operands stand for -/

namespace Operand

variable {σ τ : Store}

theorem knows_of_vocabulary? {l s d v : Value} (h : σ.vocabulary? l s d = .ok (v, τ)) :
    τ.Knows v := by
  obtain ⟨ls, -, h⟩ := bind_eq_ok_iff.1 h
  obtain ⟨ss, -, h⟩ := bind_eq_ok_iff.1 h
  obtain ⟨ds, -, h⟩ := bind_eq_ok_iff.1 h
  cases h
  exact Store.knows_addVocabulary _ _

theorem knows_of_classify? (hσ : σ.Closed) {names v : Value}
    (h : σ.classify? names = .ok (v, τ)) : τ.Knows v := by
  rw [Store.classify?] at h
  split_ifs at h with htrue
  · obtain ⟨items, -, h⟩ := bind_eq_ok_iff.1 h
    obtain ⟨roles, -, h⟩ := bind_eq_ok_iff.1 h
    cases h
    exact Store.knows_addVocabulary _ _
  · cases h
    exact hσ.emptyVocabulary

/-- What an operand stands for is stored once it is read. -/
theorem knows_of_value? (hσ : σ.Closed) {o : Operand} {v : Value}
    (h : o.value? σ = .ok (v, τ)) : τ.Knows v := by
  cases o with
  | nothing | bool | int | double | text =>
    cases h
    trivial
  | bytes ns =>
    obtain ⟨bs, -, h⟩ := map_eq_ok_iff.1 h
    cases h
    trivial
  | progression start stop step =>
    obtain ⟨p, -, h⟩ := map_eq_ok_iff.1 h
    cases h
    trivial
  | list items =>
    obtain ⟨⟨vs, ρ⟩, -, h⟩ := bind_eq_ok_iff.1 h
    cases h
    exact Store.knows_addList _ _
  | failing items =>
    obtain ⟨⟨vs, ρ⟩, -, h⟩ := bind_eq_ok_iff.1 h
    cases h
    exact Store.knows_addFailing _ _
  | interval lo hi =>
    obtain ⟨⟨a, ρ⟩, -, h⟩ := bind_eq_ok_iff.1 h
    obtain ⟨⟨b, υ⟩, -, h⟩ := bind_eq_ok_iff.1 h
    obtain ⟨x, -, h⟩ := bind_eq_ok_iff.1 h
    cases h
    trivial
  | runs items =>
    obtain ⟨⟨vs, ρ⟩, -, h⟩ := bind_eq_ok_iff.1 h
    obtain ⟨xs, -, h⟩ := bind_eq_ok_iff.1 h
    cases h
    exact Store.knows_addRuns _ _
  | enumerated elements =>
    obtain ⟨⟨w, ρ⟩, -, h⟩ := bind_eq_ok_iff.1 h
    obtain ⟨es, -, h⟩ := bind_eq_ok_iff.1 h
    cases h
    exact Store.knows_addElements _ _
  | register name =>
    rw [value?] at h
    split at h
    · cases h
      exact hσ.value? ‹_›
    · cases h
  | vocabulary literal symbolic display =>
    obtain ⟨⟨l, ρ⟩, -, h⟩ := bind_eq_ok_iff.1 h
    obtain ⟨⟨s, υ⟩, -, h⟩ := bind_eq_ok_iff.1 h
    obtain ⟨⟨d, φ⟩, -, h⟩ := bind_eq_ok_iff.1 h
    exact knows_of_vocabulary? h
  | classified names =>
    obtain ⟨⟨w, ρ⟩, hw, h⟩ := bind_eq_ok_iff.1 h
    exact knows_of_classify? (value?_keeps Store.keptByReading_closed names hσ hw) h

/-- What several operands stand for is stored once they are all read. -/
theorem knows_of_values? (hσ : σ.Closed) {os : List Operand} {vs : List Value}
    (h : values? os σ = .ok (vs, τ)) : ∀ v ∈ vs, τ.Knows v := by
  induction os generalizing σ vs with
  | nil =>
    cases h
    nofun
  | cons o os ih =>
    obtain ⟨⟨v, ρ⟩, hv, h⟩ := bind_eq_ok_iff.1 h
    obtain ⟨⟨ws, υ⟩, hws, h⟩ := bind_eq_ok_iff.1 h
    cases h
    intro w hw
    rcases List.mem_cons.1 hw with rfl | hw
    · exact (extends_of_values? hws).knows (knows_of_value? hσ hv)
    · exact ih (value?_keeps Store.keptByReading_closed o hσ hv) hws w hw

end Operand

/-! ### What requests bring about -/

variable {σ : Store}

theorem Value.knows_of_difference? {v w u : Value} (h : v.difference? w = .ok u) : σ.Knows u := by
  rw [difference?.eq_def] at h
  split at h
  · cases h
    trivial
  · split at h
    · cases h
      trivial
    · cases h
    · cases h
    · cases h

theorem Value.knows_of_operate? {op : Operator} {v w u : Value} (h : v.operate? op w = .ok u) :
    σ.Knows u := by
  rw [operate?.eq_def] at h
  split at h
  · cases h
    trivial
  · cases h
    trivial
  · exact knows_of_difference? h
  · split at h
    · cases h
      trivial
    · cases h
  · split at h
    · cases h
      trivial
    · cases h

theorem Derivation.known_derive {d : Derivation} {v : Value} {operands : List Value} {p : Product}
    (h : d.derive σ v operands = .ok p) : p.Known σ := by
  rw [derive.eq_def] at h
  split at h
  · obtain ⟨c, -, rfl⟩ := map_eq_ok_iff.1 h
    trivial
  · obtain ⟨u, hu, rfl⟩ := map_eq_ok_iff.1 h
    rw [ofValue.eq_def] at hu
    split at hu
    · cases hu
      trivial
    · cases hu
      trivial
    · exact Value.knows_of_operate? hu
    · cases hu

namespace Query

variable {operands : List Value} {p : Product}

/-- What lies at a position is a number. -/
theorem knows_of_position? {xs : Runs} {v w : Value} (h : position? xs v = .ok w) : σ.Knows w := by
  rw [position?.eq_def] at h
  split at h
  · cases h
    trivial
  · split_ifs at h
    · obtain ⟨found, -, rfl⟩ := map_eq_ok_iff.1 h
      cases found <;> trivial
    · cases h
      trivial
  · cases h

theorem known_answerRuns {q : Query} {mark : Value} {xs : SpelledRuns} (hmark : σ.Knows mark)
    (h : q.answerRuns σ mark xs operands = .ok p) : p.Known σ := by
  rw [answerRuns.eq_def] at h
  split at h <;> simp only [map_eq_ok_iff, elim_eq_ok_iff, ite_eq_ok_iff, listed, Except.ok.injEq,
    reduceCtorEq] at h
  case h_4 =>
    obtain ⟨w, hw, rfl⟩ := h
    exact knows_of_position? hw
  case h_5 | h_6 =>
    obtain ⟨b, -, rfl⟩ := h
    exact Store.knows_ofBound b
  case h_7 =>
    subst h
    exact hmark
  all_goals
    first
    | subst h; trivial
    | obtain ⟨_, -, rfl⟩ := h; trivial

theorem known_answerElements {q : Query} {mark : Option Value} {es : Enumerated}
    (hmark : ∀ v ∈ mark, σ.Knows v) (h : q.answerElements σ mark es operands = .ok p) :
    p.Known σ := by
  rw [answerElements.eq_def] at h
  split at h <;> simp only [map_eq_ok_iff, elim_eq_ok_iff, ite_eq_ok_iff, givenMark?,
    Except.ok.injEq, reduceCtorEq] at h
  case h_5 =>
    obtain ⟨v, hv, rfl⟩ := h
    exact hmark v hv
  all_goals
    first
    | subst h; trivial
    | obtain ⟨_, -, rfl⟩ := h; trivial

theorem known_answerObject (hσ : σ.Closed) {q : Query} {subject : Value}
    (h : q.answerObject σ subject operands = .ok p) : p.Known σ := by
  rw [answerObject.eq_def] at h
  split at h
  · split at h
    · exact known_answerRuns (hσ.runs _ (Array.mem_of_getElem? ‹_›)) h
    · cases h
  · split at h
    · exact known_answerElements (hσ.elements _ (Array.mem_of_getElem? ‹_›)) h
    · cases h
  · split at h
    · obtain ⟨v, hv, h⟩ := elim_eq_ok_iff.1 h
      cases h
      exact hσ.vocabularies _ (Array.mem_of_getElem? ‹_›) v hv
    · cases h
  · cases h

/-- A question is answered by what is known. -/
theorem known_answer (hσ : σ.Closed) {q : Query} {subject : Value}
    (h : q.answer σ subject operands = .ok p) : p.Known σ := by
  rw [answer.eq_def] at h
  split at h
  case h_10 => exact known_answerObject hσ h
  all_goals
    simp only [map_eq_ok_iff, Except.ok.injEq] at h
    first
    | subst h; trivial
    | obtain ⟨_, -, rfl⟩ := h; trivial

end Query

/-! ### Marks of changed sets -/

theorem StoredRuns.mark_addEach {isFrozen : StoredRuns → Bool} (count : Nat) (o : StoredRuns)
    (added : Additions) : (o.addEach isFrozen count added).object.mark = o.mark := by
  obtain ⟨xs, -, hobject⟩ := exists_object_addEach isFrozen count o added
  rw [hobject]
  rfl

theorem StoredRuns.mark_remove (o : StoredRuns) (v : Value) :
    (o.remove v).object.mark = o.mark := by
  rcases o.remove_cases v with ⟨n, hremove⟩ | hremove | hremove | hremove
  all_goals
    rw [hremove]
    rfl

theorem StoredRuns.knows_mark_assignMark {isFrozen : StoredRuns → Bool} {o : StoredRuns}
    (ho : σ.Knows o.mark) {v : Value} (hv : σ.Knows v) :
    σ.Knows (o.assignMark isFrozen v).object.mark := by
  rw [assignMark]
  split
  · exact ho
  · exact hv
  · exact hv

/-- A change to a set keeps its mark, or marks it by an operand or a truth value. -/
theorem Mutation.Outcome.knows_mark {m : Mutation} {isFrozen : StoredRuns → Bool} {o : StoredRuns}
    {vs : List Value} {effect : Effect StoredRuns} (h : m.Outcome σ isFrozen o vs effect)
    (ho : σ.Knows o.mark) (hvs : ∀ v ∈ vs, σ.Knows v) : σ.Knows effect.object.mark := by
  cases h with
  | refused | rejected | unlisted | clear => exact ho
  | add | addAll => rwa [StoredRuns.mark_addEach]
  | remove => rwa [StoredRuns.mark_remove]
  | freeze => exact StoredRuns.knows_mark_assignMark ho trivial
  | mark v => exact StoredRuns.knows_mark_assignMark ho (hvs v List.mem_cons_self)

theorem Mutation.knows_mark_applyElements {m : Mutation} {o : StoredElements}
    (ho : ∀ v ∈ o.mark, σ.Knows v) {operands : List Value}
    (hoperands : ∀ v ∈ operands, σ.Knows v) :
    ∀ v ∈ (m.applyElements σ o operands).object.mark, σ.Knows v := by
  rw [applyElements.eq_def]
  split
  · exact ho
  · split
    · exact ho
    · exact ho
  · split
    · exact ho
    · exact ho
  · rintro v hv
    cases hv
    exact hoperands _ List.mem_cons_self
  · exact ho
  · exact ho
  · exact ho

/-! ### Steps and sessions -/

/-- A change answers with its receiver or with nothing. -/
theorem Mutation.knows_of_report {α : Type} {m : Mutation} {receiver v : Value}
    {effect : Effect α} (hreceiver : σ.Knows receiver)
    (h : (m.report receiver effect).result = .ok v) : σ.Knows v := by
  rw [report] at h
  cases hfault : effect.fault with
  | some fault =>
    rw [hfault] at h
    cases h
  | none =>
    rw [hfault] at h
    cases h
    split
    · exact hreceiver
    · trivial

/-- An action keeps a store closed, and its result is known. -/
theorem Action.Outcome.closed (hσ : σ.Closed) {vs : List Value} (hvs : ∀ v ∈ vs, σ.Knows v)
    {action : Action} {τ : Store} {report : Report} (h : action.Outcome σ vs τ report) :
    τ.Closed ∧ ∀ v, report.result = .ok v → τ.Knows v := by
  cases h with
  | refused => exact ⟨hσ, nofun⟩
  | @make m c hc =>
    obtain ⟨hclosed, hknown⟩ := hσ.enter (p := .contents c) trivial
    exact ⟨hclosed, fun v hv => by cases hv; exact hknown⟩
  | derive hv hp =>
    obtain ⟨hclosed, hknown⟩ := hσ.enter (Derivation.known_derive hp)
    exact ⟨hclosed, fun v hv => by cases hv; exact hknown⟩
  | answer hv hp =>
    obtain ⟨hclosed, hknown⟩ := hσ.enter (Query.known_answer hσ hp)
    exact ⟨hclosed, fun v hv => by cases hv; exact hknown⟩
  | changeRuns hv ho =>
    have hmark := hσ.runs _ (Array.mem_of_getElem? ho)
    refine ⟨hσ.setRuns ((Mutation.applyRuns_outcome _ _ _ _ vs).knows_mark hmark hvs) _,
      fun v hresult => ?_⟩
    rw [Store.knows_setRuns]
    exact Mutation.knows_of_report (hσ.value? hv) hresult
  | changeElements hv ho =>
    have hmark := hσ.elements _ (Array.mem_of_getElem? ho)
    refine ⟨hσ.setElements (Mutation.knows_mark_applyElements hmark hvs) _, fun v hresult => ?_⟩
    rw [Store.knows_setElements]
    exact Mutation.knows_of_report (hσ.value? hv) hresult
  | changeList hv =>
    refine ⟨hσ.setList _ _, fun v hresult => ?_⟩
    rw [Store.knows_setList]
    exact Mutation.knows_of_report (hσ.value? hv) hresult
  | markVocabulary hv heq =>
    subst heq
    refine ⟨hσ.markVocabulary (hvs _ List.mem_cons_self) _, fun v hresult => ?_⟩
    cases hresult
    trivial

/-- **What one step preserves.** A step takes closed stores to closed stores. -/
theorem Step.closed_run (s : Step) (hσ : σ.Closed) : (s.run σ).1.Closed := by
  rcases s.run_cases σ with ⟨fault, -, hrun⟩ | ⟨vs, τ, υ, report, hvs, hact, hrun⟩
  · rw [hrun]
    exact hσ
  · rw [hrun]
    have hτ : τ.Closed := Operand.values?_keeps Store.keptByReading_closed s.operands hσ hvs
    obtain ⟨hυ, hresult⟩ := hact.closed hτ (Operand.knows_of_values? hσ hvs)
    exact hυ.bindResult s.into hresult

/-- **What registers and marks name is stored after every session.** -/
theorem Store.Reachable.closed (h : σ.Reachable) : σ.Closed := by
  obtain ⟨steps, rfl⟩ := h
  exact Session.run_induction (fun _ s hσ => s.closed_run hσ) closed_initial steps

end SymbolSets
