import SymbolSets.Proofs.Enumerated.Ordered
import SymbolSets.Proofs.Session.Making

/-!
# All stored sets that keep their elements one by one are ordered

Such a set is made of a collection, by an operation between it and a collection, or by additions and
removals. Whatever else is an element of it, its numbers come first and ascend after every step of
every session, so that a number is found where it is looked for.

## Main definitions

* `Store.Ordered`: every set kept one by one begins with numbers that ascend.
* `Contents.Ordered`, `Product.Ordered`: the same for what is about to be stored.

## Main results

* `Contents.Made.ordered`: new sets are ordered.
* `Mutation.ordered_applyElements`: changed sets stay ordered.
* `Step.ordered_run`, `Store.Reachable.ordered`: what one step preserves, and every session.
-/

namespace SymbolSets

/-- Every set kept one by one begins with numbers that ascend. -/
def Store.Ordered (σ : Store) : Prop :=
  ∀ o ∈ σ.elements, o.elements.Ordered

/-- If the set is kept one by one, its elements are ordered. -/
def Contents.Ordered : Contents → Prop
  | .runs _ => True
  | .enumerated es => es.Ordered

/-- If a set is new, its elements are ordered. -/
def Product.Ordered : Product → Prop
  | .contents c => c.Ordered
  | .value _ | .items _ => True

variable {σ : Store}

namespace Store

/-! ### Ordered stores -/

theorem ordered_initial : initial.Ordered :=
  fun _ ho => by cases Array.mem_toList_iff.2 ho

theorem elementsAt_eq_of_getElem? {place : Nat} {o : StoredElements}
    (h : σ.elements[place]? = some o) : σ.elementsAt place = o.elements := by
  rw [elementsAt, h, Option.map_some, Option.getD_some]

theorem Ordered.elementsAt (h : σ.Ordered) (place : Nat) : (σ.elementsAt place).Ordered := by
  cases ho : σ.elements[place]? with
  | none =>
    rw [Store.elementsAt, ho]
    exact Enumerated.ordered_nil
  | some o =>
    rw [elementsAt_eq_of_getElem? ho]
    exact h o (Array.mem_of_getElem? ho)

theorem Ordered.addElements (h : σ.Ordered) {es : Enumerated} (hes : es.Ordered) :
    (σ.addElements es).2.Ordered := by
  intro o ho
  rcases Array.mem_push.1 ho with ho | rfl
  · exact h o ho
  · exact hes

theorem Ordered.setElements (h : σ.Ordered) {o : StoredElements} (ho : o.elements.Ordered)
    (place : Nat) : (σ.setElements place o).Ordered := by
  intro p hp
  rcases Array.mem_or_eq_of_mem_setIfInBounds hp with hp | rfl
  · exact h p hp
  · exact ho

theorem Ordered.enter (h : σ.Ordered) {p : Product} (hp : p.Ordered) : (σ.enter p).2.Ordered := by
  cases p with
  | value v => exact h
  | items vs => exact h
  | contents c =>
    cases c with
    | runs xs => exact h
    | enumerated es => exact h.addElements hp

theorem Ordered.bindResult (h : σ.Ordered) (into : Option String) (result : Except Fault Value) :
    (σ.bindResult into result).Ordered := by
  cases result with
  | error fault => exact h
  | ok v =>
    cases into with
    | none => exact h
    | some name => exact h

theorem Ordered.contents? (h : σ.Ordered) {v : Value} {c : Contents}
    (hc : σ.contents? v = some c) : c.Ordered := by
  rw [Store.contents?.eq_def] at hc
  split at hc
  · cases hc
    trivial
  · cases hc
    exact h.elementsAt _
  · cases hc

/-- Values are filed as they should be, so that the set of a list of values is ordered. -/
theorem ordered_ofList_map_element (runsAt : Nat → Runs) (vs : List Value) :
    Enumerated.Ordered (Enumerated.ofList runsAt (vs.map σ.element)) := by
  refine Enumerated.ordered_ofList fun e he => ?_
  obtain ⟨v, -, rfl⟩ := List.mem_map.1 he
  exact Element.isFiled_ofValue σ.runsAt v

/-- Sets that are written out as operands are ordered. -/
theorem keptByReading_ordered : KeptByReading Ordered where
  addRuns _ h := h
  addElements vs h := h.addElements (ordered_ofList_map_element _ vs)
  addList _ h := h
  addFailing _ h := h
  addVocabulary _ h := h

end Store

/-! ### New sets -/

/-- **New sets are ordered.** The induction is on the way in which they come about. -/
theorem Contents.Made.ordered (hσ : σ.Ordered) {c : Contents} (h : c.Made σ) : c.Ordered := by
  induction h with
  | stored h => exact hσ.contents? h
  | ofSpans => trivial
  | insertAll => trivial
  | inter => trivial
  | diff => trivial
  | ofList vs => exact Store.ordered_ofList_map_element _ vs
  | applyElements op _ _ ihes ihfs => exact Enumerated.Ordered.apply op ihes ihfs

theorem Product.Made.ordered (hσ : σ.Ordered) {p : Product} (h : p.Made σ) : p.Ordered := by
  cases p with
  | value v => trivial
  | items vs => trivial
  | contents c => exact Contents.Made.ordered hσ h

/-! ### Changed sets -/

/-- **Changed sets stay ordered,** also when the change ends in a fault. -/
theorem Mutation.ordered_applyElements {m : Mutation} {o : StoredElements}
    (h : o.elements.Ordered) (operands : List Value) :
    (m.applyElements σ o operands).object.elements.Ordered := by
  rw [applyElements.eq_def]
  split
  · exact h.union (Store.ordered_ofList_map_element _ _)
  · split
    · exact h.union (Store.ordered_ofList_map_element _ _)
    · exact h
  · split
    · exact h.filter _
    · exact h
  · exact h
  · exact h
  · exact h
  · exact h

/-! ### Steps and sessions -/

theorem Action.Outcome.ordered (hσ : σ.Ordered) {vs : List Value} {action : Action}
    {τ : Store} {report : Report} (h : action.Outcome σ vs τ report) : τ.Ordered := by
  cases h with
  | refused => exact hσ
  | make hc => exact hσ.enter (p := .contents _) ((Maker.made_of_make hc).ordered hσ)
  | derive hv hp => exact hσ.enter ((Derivation.made_of_derive hp).ordered hσ)
  | answer hv hp => exact hσ.enter ((Query.made_of_answer hp).ordered hσ)
  | changeRuns hv ho => exact hσ
  | changeElements hv ho =>
    exact hσ.setElements (Mutation.ordered_applyElements (hσ _ (Array.mem_of_getElem? ho)) vs) _
  | changeList hv => exact hσ
  | markVocabulary hv hvs => exact hσ

/-- **What one step preserves.** A step takes ordered stores to ordered stores. -/
theorem Step.ordered_run (s : Step) (hσ : σ.Ordered) : (s.run σ).1.Ordered :=
  s.run_keeps Store.keptByReading_ordered (fun hσ hact => hact.ordered hσ)
    (fun into result hσ => hσ.bindResult into result) hσ

theorem Store.Reachable.ordered (h : σ.Reachable) : σ.Ordered := by
  obtain ⟨steps, rfl⟩ := h
  exact Session.run_induction (fun _ s hσ => s.ordered_run hσ) ordered_initial steps

end SymbolSets
