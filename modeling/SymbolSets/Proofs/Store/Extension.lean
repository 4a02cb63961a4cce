import Mathlib.Tactic.SplitIfs
import SymbolSets.Session.Operand

/-!
# Stores that only grow

Reading operands may store new sets, lists and vocabularies, each at a place that was free before.
It changes no object and no register. Both that and every other property of the store that new
objects do not disturb follow from one induction over the operands.

## Main definitions

* `Store.Extends`: every object of one store is found unchanged in another.
* `Store.KeptByReading`: a property of stores that new objects of operands do not disturb.

## Main results

* `Operand.values?_keeps`: reading operands keeps such a property.
* `Operand.extends_of_values?`: reading operands extends the store.
-/

namespace SymbolSets

/-! ### Outcomes without a fault -/

section Outcomes

variable {ε α β : Type}

theorem bind_eq_ok_iff {x : Except ε α} {f : α → Except ε β} {b : β} :
    (x >>= f) = .ok b ↔ ∃ a, x = .ok a ∧ f a = .ok b := by
  cases x with
  | error e => exact ⟨nofun, nofun⟩
  | ok a => exact ⟨fun h => ⟨a, rfl, h⟩, fun ⟨_, ha, h⟩ => by cases ha; exact h⟩

theorem map_eq_ok_iff {x : Except ε α} {f : α → β} {b : β} :
    x.map f = .ok b ↔ ∃ a, x = .ok a ∧ f a = b := by
  cases x with
  | error e => exact ⟨nofun, nofun⟩
  | ok a => simp [Except.map]

theorem elim_eq_ok_iff {x : Option α} {e : ε} {f : α → Except ε β} {b : β} :
    x.elim (.error e) f = .ok b ↔ ∃ a, x = some a ∧ f a = .ok b := by
  cases x with
  | none => exact ⟨nofun, nofun⟩
  | some a => simp

theorem ite_eq_ok_iff {c : Prop} [Decidable c] {a b : α} {e : ε} :
    (if c then .ok a else .error e) = Except.ok b ↔ c ∧ a = b := by
  split_ifs with h
  · simp [h]
  · exact ⟨nofun, fun h' => absurd h'.1 h⟩

end Outcomes

namespace Store

/-! ### Extensions -/

/-- Every object of `σ` is found unchanged at its place in `τ`, and the registers are the same. -/
structure Extends (σ τ : Store) : Prop where
  runs : ∀ {i : Nat} {o}, σ.runs[i]? = some o → τ.runs[i]? = some o
  elements : ∀ {i : Nat} {o}, σ.elements[i]? = some o → τ.elements[i]? = some o
  lists : ∀ {i : Nat} {vs}, σ.lists[i]? = some vs → τ.lists[i]? = some vs
  vocabularies : ∀ {i : Nat} {o}, σ.vocabularies[i]? = some o → τ.vocabularies[i]? = some o
  registers : τ.registers = σ.registers

theorem Extends.refl (σ : Store) : σ.Extends σ :=
  ⟨id, id, id, id, rfl⟩

theorem Extends.trans {σ τ υ : Store} (h : σ.Extends τ) (h' : τ.Extends υ) : σ.Extends υ :=
  ⟨fun ho => h'.runs (h.runs ho), fun ho => h'.elements (h.elements ho),
    fun ho => h'.lists (h.lists ho), fun ho => h'.vocabularies (h.vocabularies ho),
    h'.registers.trans h.registers⟩

theorem Extends.value? {σ τ : Store} (h : σ.Extends τ) (name : String) :
    τ.value? name = σ.value? name := by
  rw [Store.value?, Store.value?, h.registers]

/-- An array keeps its items when one more is put behind them. -/
private theorem getElem?_push_of_some {α : Type} {xs : Array α} {i : Nat} {x : α}
    (h : xs[i]? = some x) (y : α) : (xs.push y)[i]? = some x := by
  have hi : i < xs.size := (Array.getElem?_eq_some_iff.1 h).1
  rw [Array.getElem?_push, if_neg (Nat.ne_of_lt hi), h]

theorem extends_addRuns (σ : Store) (xs : SpelledRuns) : σ.Extends (σ.addRuns xs).2 :=
  { Extends.refl σ with runs := fun h => getElem?_push_of_some h _ }

theorem extends_addElements (σ : Store) (es : Enumerated) : σ.Extends (σ.addElements es).2 :=
  { Extends.refl σ with elements := fun h => getElem?_push_of_some h _ }

theorem extends_addList (σ : Store) (vs : List Value) : σ.Extends (σ.addList vs).2 :=
  { Extends.refl σ with lists := fun h => getElem?_push_of_some h _ }

theorem extends_addFailing (σ : Store) (vs : List Value) : σ.Extends (σ.addFailing vs).2 :=
  { Extends.refl σ with lists := fun h => getElem?_push_of_some h _ }

theorem extends_addVocabulary (σ : Store) (v : Vocabulary) : σ.Extends (σ.addVocabulary v).2 :=
  { Extends.refl σ with vocabularies := fun h => getElem?_push_of_some h _ }

theorem runsAt_eq_of_getElem? {σ : Store} {i : Nat} {o : StoredRuns} (h : σ.runs[i]? = some o) :
    σ.runsAt i = o.runs := by
  rw [runsAt, h, Option.map_some, Option.getD_some]

theorem spelledAt_eq_of_getElem? {σ : Store} {i : Nat} {o : StoredRuns}
    (h : σ.runs[i]? = some o) : σ.spelledAt i = o.toSpelledRuns := by
  rw [spelledAt, h, Option.map_some, Option.getD_some]

@[simp] theorem runs_spelledAt (σ : Store) (i : Nat) : (σ.spelledAt i).runs = σ.runsAt i := by
  rw [spelledAt, runsAt]
  cases σ.runs[i]? with
  | none => rfl
  | some o => rfl

/-- A new set holds what was stored. -/
theorem runsAt_addRuns (σ : Store) (xs : SpelledRuns) :
    (σ.addRuns xs).2.runsAt σ.runs.size = xs.runs := by
  simp [addRuns, runsAt]

/-- What a set holds is the same in every extension of the store. -/
theorem Extends.runsAt_eq {σ τ : Store} (h : σ.Extends τ) {i : Nat} (hi : i < σ.runs.size) :
    τ.runsAt i = σ.runsAt i := by
  have ho := Array.getElem?_eq_getElem hi
  rw [runsAt_eq_of_getElem? ho, runsAt_eq_of_getElem? (h.runs ho)]

theorem Extends.spelledAt_eq {σ τ : Store} (h : σ.Extends τ) {i : Nat} (hi : i < σ.runs.size) :
    τ.spelledAt i = σ.spelledAt i := by
  have ho := Array.getElem?_eq_getElem hi
  rw [spelledAt_eq_of_getElem? ho, spelledAt_eq_of_getElem? (h.runs ho)]

/-! ### Properties that new objects do not disturb -/

/-- A property of stores that holds on when an operand stores an object. A set that is written out
is stored by intervals or by values, which may be any. -/
structure KeptByReading (P : Store → Prop) : Prop where
  addRuns : ∀ {σ} (xs : List Span), P σ → P (σ.addRuns (.ofSpans xs)).2
  addElements : ∀ {σ} (vs : List Value), P σ →
    P (σ.addElements (Enumerated.ofList σ.runsAt (vs.map σ.element))).2
  addList : ∀ {σ} (vs : List Value), P σ → P (σ.addList vs).2
  addFailing : ∀ {σ} (vs : List Value), P σ → P (σ.addFailing vs).2
  addVocabulary : ∀ {σ} (v : Vocabulary), P σ → P (σ.addVocabulary v).2

variable {P : Store → Prop}

theorem KeptByReading.vocabulary? (hP : KeptByReading P) {σ τ : Store} {l s d v : Value}
    (hσ : P σ) (h : σ.vocabulary? l s d = .ok (v, τ)) : P τ := by
  obtain ⟨ls, -, h⟩ := bind_eq_ok_iff.1 h
  obtain ⟨ss, -, h⟩ := bind_eq_ok_iff.1 h
  obtain ⟨ds, -, h⟩ := bind_eq_ok_iff.1 h
  cases h
  exact hP.addVocabulary _ hσ

theorem KeptByReading.classify? (hP : KeptByReading P) {σ τ : Store} {names v : Value}
    (hσ : P σ) (h : σ.classify? names = .ok (v, τ)) : P τ := by
  rw [Store.classify?] at h
  split_ifs at h with htrue
  · obtain ⟨items, -, h⟩ := bind_eq_ok_iff.1 h
    obtain ⟨roles, -, h⟩ := bind_eq_ok_iff.1 h
    cases h
    exact hP.addVocabulary _ hσ
  · cases h
    exact hσ

/-- A collection that does not break off gives its items. -/
theorem pulled?_eq_ok_none_iff {σ : Store} {v : Value} {vs : List Value} :
    σ.pulled? v = .ok (vs, none) ↔ σ.items? v = .ok vs := by
  cases v with
  | failing place => exact iff_of_false nofun nofun
  | _ => simp [pulled?, map_eq_ok_iff]

/-- A collection is taken as its items, each as it is filed at the moment. -/
theorem exists_of_elements? {σ : Store} {v : Value} {es : List Element}
    (h : σ.elements? v = .ok es) : ∃ vs, σ.items? v = .ok vs ∧ es = vs.map σ.element := by
  rw [elements?] at h
  obtain ⟨⟨vs, broken⟩, hvs, h⟩ := bind_eq_ok_iff.1 h
  cases broken with
  | none =>
    obtain ⟨-, rfl⟩ := ite_eq_ok_iff.1 h
    exact ⟨vs, pulled?_eq_ok_none_iff.1 hvs, rfl⟩
  | some fault =>
    dsimp only at h
    split_ifs at h with hall
    cases h

/-- Extending a given store is undisturbed by new objects. -/
theorem keptByReading_extends (σ : Store) : KeptByReading σ.Extends where
  addRuns _ h := h.trans (extends_addRuns _ _)
  addElements _ h := h.trans (extends_addElements _ _)
  addList _ h := h.trans (extends_addList _ _)
  addFailing _ h := h.trans (extends_addFailing _ _)
  addVocabulary _ h := h.trans (extends_addVocabulary _ _)

end Store

namespace Operand

open Store

variable {P : Store → Prop}

/-! ### Reading operands -/

mutual

/-- Reading an operand keeps what new objects do not disturb. The induction is on the operand. -/
theorem value?_keeps (hP : KeptByReading P) : (o : Operand) → {σ τ : Store} → {v : Value} →
    P σ → o.value? σ = .ok (v, τ) → P τ
  | .nothing, _, _, _, hσ, h | .bool _, _, _, _, hσ, h | .int _, _, _, _, hσ, h
  | .double _, _, _, _, hσ, h | .text _, _, _, _, hσ, h => by
    cases h
    exact hσ
  | .bytes ns, σ, _, _, hσ, h => by
    obtain ⟨bs, -, h⟩ := map_eq_ok_iff.1 h
    cases h
    exact hσ
  | .progression start stop step, σ, _, _, hσ, h => by
    obtain ⟨p, -, h⟩ := map_eq_ok_iff.1 h
    cases h
    exact hσ
  | .list items, σ, _, _, hσ, h => by
    obtain ⟨⟨vs, ρ⟩, hvs, h⟩ := bind_eq_ok_iff.1 h
    cases h
    exact hP.addList _ (values?_keeps hP items hσ hvs)
  | .failing items, σ, _, _, hσ, h => by
    obtain ⟨⟨vs, ρ⟩, hvs, h⟩ := bind_eq_ok_iff.1 h
    cases h
    exact hP.addFailing _ (values?_keeps hP items hσ hvs)
  | .interval lo hi, σ, _, _, hσ, h => by
    obtain ⟨⟨a, ρ⟩, ha, h⟩ := bind_eq_ok_iff.1 h
    obtain ⟨⟨b, υ⟩, hb, h⟩ := bind_eq_ok_iff.1 h
    obtain ⟨x, -, h⟩ := bind_eq_ok_iff.1 h
    cases h
    exact value?_keeps hP hi (value?_keeps hP lo hσ ha) hb
  | .runs items, σ, _, _, hσ, h => by
    obtain ⟨⟨vs, ρ⟩, hvs, h⟩ := bind_eq_ok_iff.1 h
    obtain ⟨xs, -, h⟩ := bind_eq_ok_iff.1 h
    cases h
    exact hP.addRuns _ (values?_keeps hP items hσ hvs)
  | .enumerated elements, σ, _, _, hσ, h => by
    obtain ⟨⟨v, ρ⟩, hv, h⟩ := bind_eq_ok_iff.1 h
    obtain ⟨es, hes, h⟩ := bind_eq_ok_iff.1 h
    obtain ⟨vs, -, rfl⟩ := exists_of_elements? hes
    cases h
    exact hP.addElements vs (value?_keeps hP elements hσ hv)
  | .register name, σ, _, _, hσ, h => by
    rw [value?] at h
    split at h
    · cases h
      exact hσ
    · cases h
  | .vocabulary literal symbolic display, σ, _, _, hσ, h => by
    obtain ⟨⟨l, ρ⟩, hl, h⟩ := bind_eq_ok_iff.1 h
    obtain ⟨⟨s, υ⟩, hs, h⟩ := bind_eq_ok_iff.1 h
    obtain ⟨⟨d, φ⟩, hd, h⟩ := bind_eq_ok_iff.1 h
    have hρ : P ρ := value?_keeps hP literal hσ hl
    have hυ : P υ := value?_keeps hP symbolic hρ hs
    exact hP.vocabulary? (value?_keeps hP display hυ hd) h
  | .classified names, σ, _, _, hσ, h => by
    obtain ⟨⟨v, ρ⟩, hv, h⟩ := bind_eq_ok_iff.1 h
    exact hP.classify? (value?_keeps hP names hσ hv) h

/-- Reading several operands keeps what new objects do not disturb. -/
theorem values?_keeps (hP : KeptByReading P) : (os : List Operand) → {σ τ : Store} →
    {vs : List Value} → P σ → values? os σ = .ok (vs, τ) → P τ
  | [], _, _, _, hσ, h => by
    cases h
    exact hσ
  | o :: os, σ, _, _, hσ, h => by
    obtain ⟨⟨v, ρ⟩, hv, h⟩ := bind_eq_ok_iff.1 h
    obtain ⟨⟨vs, υ⟩, hvs, h⟩ := bind_eq_ok_iff.1 h
    cases h
    exact values?_keeps hP os (value?_keeps hP o hσ hv) hvs

end

/-- **Reading operands changes nothing that is stored.** -/
theorem extends_of_values? {os : List Operand} {σ τ : Store} {vs : List Value}
    (h : values? os σ = .ok (vs, τ)) : σ.Extends τ :=
  values?_keeps (keptByReading_extends σ) os (Extends.refl σ) h

end Operand

end SymbolSets
