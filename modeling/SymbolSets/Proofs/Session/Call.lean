import SymbolSets.Proofs.Runs.Spelled
import SymbolSets.Proofs.Session.Reference
import SymbolSets.Proofs.Store.Collection

/-!
# Calls that add and remove integers

A request that adds or removes integers is read as a call, which says only which integers it touches
and whether it puts them into the set or takes them out.

A call that is not rejected changes the set as it says. It is rejected only if the set is frozen at
some moment of the call, and the mark of the set stays as it was.

## Main definitions

* `Call`, `Call.touch?`: a call, and what it does to an integer.
* `Mutation.call?`: the call that a request with operands amounts to.
* `Call.Changes`: what comes of a call on a set.

## Main results

* `StoredRuns.changes_addEach`, `StoredRuns.changes_remove`, `StoredRuns.changes_clear`: what each
  of the calls does.
* `Mutation.changes_applyRuns`: what every call does.
-/

namespace SymbolSets

/-- A call that adds integers to a set or removes some. -/
inductive Call
  | add (x : Interval)
  | addAll (items : List Int)
  | remove (v : Int)
  | clear
deriving DecidableEq

namespace Call

/-- Whether the call puts `v` into the set or takes it out, if it touches `v` at all. -/
def touch? (v : Int) : Call → Option Bool
  | .add x => if v ∈ x then some true else none
  | .addAll items => if v ∈ items then some true else none
  | .remove w => if v = w then some false else none
  | .clear => some false

/-- Whether `v` is in the set after the call, given whether it was before. -/
def Leaves (c : Call) (v : Int) (before : Prop) : Prop :=
  c.touch? v = some true ∨ c.touch? v = none ∧ before

theorem leaves_add {x : Interval} {v : Int} {before : Prop} :
    (Call.add x).Leaves v before ↔ v ∈ x ∨ before := by
  rw [Leaves, touch?]
  split_ifs with h
  · simp [h]
  · simp [h]

theorem leaves_addAll {items : List Int} {v : Int} {before : Prop} :
    (Call.addAll items).Leaves v before ↔ v ∈ items ∨ before := by
  rw [Leaves, touch?]
  split_ifs with h
  · simp [h]
  · simp [h]

theorem leaves_remove {v w : Int} {before : Prop} :
    (Call.remove w).Leaves v before ↔ v ≠ w ∧ before := by
  rw [Leaves, touch?]
  split_ifs with h
  · simp [h]
  · simp [h]

theorem leaves_clear {v : Int} {before : Prop} : ¬ Call.clear.Leaves v before := by
  simp [Leaves, touch?]

end Call

/-- The call that a request amounts to, if its operands are integers or a collection of integers. A
collection is read by iterating it. -/
def Mutation.call? (m : Mutation) (σ : Store) (operands : List Value) : Option Call :=
  match m, operands with
  | .add, [v] | .add, [v, .nothing] => (Value.interval? v v).toOption.map fun x => .add x.interval
  | .add, [lo, hi] => (Value.interval? lo hi).toOption.map fun x => .add x.interval
  | .addAll, [v] =>
    match σ.items? v with
    | .ok items =>
      if items.all fun w => w.int?.isSome then some (.addAll (items.filterMap Value.int?)) else none
    | .error _ => none
  | .remove, [v] => v.int?.map .remove
  | .clear, [] => some .clear
  | _, _ => none

/-! ### What calls do -/

/-- What comes of a call on the set `o`. -/
structure Call.Changes (c : Call) (isFrozen : StoredRuns → Bool) (o : StoredRuns)
    (effect : Effect StoredRuns) : Prop where
  mark : effect.object.mark = o.mark
  holds : effect.fault = none →
    ∀ v, effect.object.runs.Holds v ↔ c.Leaves v (o.runs.Holds v)
  fault : (∀ xs, isFrozen (o.withRuns xs) = false) → effect.fault = none

namespace StoredRuns

variable {isFrozen : StoredRuns → Bool} {o : StoredRuns} {added : Additions}

private theorem not_isFrozen (h : ∀ xs, isFrozen (o.withRuns xs) = false) :
    ¬ isFrozen o = true :=
  Bool.eq_false_iff.1 (h o.toSpelledRuns)

theorem addEach_of_intervals?_nil (h : added.intervals? = .ok []) :
    (count : Nat) → o.addEach isFrozen count added = .done o
  | 0 => rfl
  | count + 1 => by rw [addEach, Additions.next?_of_intervals?_nil h]

theorem addEach_of_intervals?_cons {x : Span} {xs : List Span}
    (h : added.intervals? = .ok (x :: xs)) (count : Nat) :
    ∃ rest : Additions, rest.intervals? = .ok xs ∧ o.addEach isFrozen (count + 1) added =
      if isFrozen o then o.rejection .add
      else (o.withRuns (o.insert x)).addEach isFrozen count rest := by
  obtain ⟨rest, hnext, hrest⟩ := Additions.next?_of_intervals?_cons h
  exact ⟨rest, hrest, by rw [addEach, hnext]⟩

/-- **Additions that are not rejected add all intervals.** The induction is on the intervals. -/
theorem object_addEach {xs : List Span} (h : added.intervals? = .ok xs)
    (hfault : (o.addEach isFrozen xs.length added).fault = none) :
    (o.addEach isFrozen xs.length added).object = o.withRuns (o.insertAll xs) := by
  induction xs generalizing o added with
  | nil =>
    rw [addEach_of_intervals?_nil h]
    rfl
  | cons x xs ih =>
    obtain ⟨rest, hrest, heq⟩ := addEach_of_intervals?_cons h xs.length
    rw [List.length_cons, heq] at hfault ⊢
    split_ifs at hfault ⊢ with hfrozen
    · cases hfault
    · rw [ih hrest hfault]
      rfl

/-- Additions are not rejected if the set is never frozen. -/
theorem fault_addEach {xs : List Span} (h : added.intervals? = .ok xs)
    (hfrozen : ∀ ys, isFrozen (o.withRuns ys) = false) :
    (o.addEach isFrozen xs.length added).fault = none := by
  induction xs generalizing o added with
  | nil =>
    rw [addEach_of_intervals?_nil h]
    rfl
  | cons x xs ih =>
    obtain ⟨rest, hrest, heq⟩ := addEach_of_intervals?_cons h xs.length
    rw [List.length_cons, heq, if_neg (not_isFrozen hfrozen)]
    exact ih hrest hfrozen

theorem changes_addEach {c : Call} {xs : List Span} (ho : o.runs.Canonical)
    (h : added.intervals? = .ok xs)
    (hc : ∀ {v before}, c.Leaves v before ↔ Runs.Holds (xs.map Span.interval) v ∨ before) :
    c.Changes isFrozen o (o.addEach isFrozen xs.length added) where
  mark := mark_addEach _ _ _
  holds hfault v := by
    rw [object_addEach h hfault, hc, or_comm]
    change (o.insertAll xs).runs.Holds v ↔ _
    exact SpelledRuns.holds_insertAll ho
  fault := fault_addEach h

theorem remove_of_int? {v : Value} {n : Int} (h : v.int? = some n) :
    o.remove v = .done (o.withRuns (o.erase n)) := by
  rw [remove.eq_def, h]

theorem changes_remove (ho : o.runs.Canonical) {v : Value} {n : Int} (hv : v.int? = some n) :
    (Call.remove n).Changes isFrozen o
      (if isFrozen o then o.rejection .remove else o.remove v) where
  mark := by
    split_ifs with hfrozen
    · rfl
    · exact mark_remove o v
  holds hfault w := by
    split_ifs at hfault ⊢ with hfrozen
    · cases hfault
    · rw [remove_of_int? hv, Call.leaves_remove]
      exact SpelledRuns.holds_erase ho
  fault hfrozen := by
    rw [if_neg (not_isFrozen hfrozen), remove_of_int? hv]
    rfl

theorem changes_clear :
    Call.clear.Changes isFrozen o
      (if isFrozen o then o.rejection .clear else .done (o.withRuns .empty)) where
  mark := by
    split_ifs with hfrozen
    · rfl
    · rfl
  holds hfault v := by
    split_ifs at hfault ⊢ with hfrozen
    · cases hfault
    · exact iff_of_false Runs.holds_nil Call.leaves_clear
  fault hfrozen := by
    rw [if_neg (not_isFrozen hfrozen)]
    rfl

end StoredRuns

namespace Mutation

variable {σ : Store} {isFrozen : StoredRuns → Bool} {o : StoredRuns}

/-- Adding a range that its bounds describe. -/
theorem changes_addRange (ho : o.runs.Canonical) {lo hi : Value} {c : Call}
    (hc : (Value.interval? lo hi).toOption.map (fun x => .add x.interval) = some c) :
    c.Changes isFrozen o (o.addEach isFrozen 1 (.items [Value.interval? lo hi])) := by
  obtain ⟨x, hx, rfl⟩ := Option.map_eq_some_iff.1 hc
  cases hlohi : Value.interval? lo hi with
  | error fault =>
    rw [hlohi] at hx
    cases hx
  | ok y =>
    rw [hlohi] at hx
    cases hx
    have hintervals : (Additions.items [.ok x]).intervals? = .ok [x] := rfl
    refine StoredRuns.changes_addEach ho hintervals ?_
    simp [Call.leaves_add, Runs.Holds]

/-- **What a call does.** -/
theorem changes_applyRuns (ho : o.runs.Canonical) {m : Mutation} {operands : List Value} {c : Call}
    (hc : m.call? σ operands = some c) :
    c.Changes isFrozen o (m.applyRuns σ isFrozen o operands) := by
  rw [call?.eq_def] at hc
  split at hc
  · exact changes_addRange ho hc
  · exact changes_addRange ho hc
  · rename_i lo hi hne
    rw [applyRuns]
    · exact changes_addRange ho hc
    · exact hne
  · split at hc
    · split_ifs at hc with hints
      cases hc
      obtain ⟨added, xs, hadded, hxs, hholds⟩ :=
        Store.exists_additions?_of_items? ‹_› (List.all_eq_true.1 hints)
      simp only [applyRuns, hadded, Additions.count_of_intervals? hxs]
      refine StoredRuns.changes_addEach ho hxs fun {v before} => ?_
      rw [Call.leaves_addAll, hholds]
    · cases hc
  · obtain ⟨n, hn, rfl⟩ := Option.map_eq_some_iff.1 hc
    exact StoredRuns.changes_remove ho hn
  · cases hc
    exact StoredRuns.changes_clear
  · cases hc

end Mutation

end SymbolSets
