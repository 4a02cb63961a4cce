import Mathlib.Tactic.SplitIfs
import SymbolSets.Session.Mutation

/-!
# What a change to a set can do

A request for a change to a set that is kept by runs does one of a few things. It adds intervals one
by one, for as long as there are any and the set is not frozen; it removes an integer; it empties
the set; it assigns a mark. Or else it is refused. What all changes have in common is proved from
this list, one case for each.

## Main definitions

* `Mutation.Outcome`: the effects that a request for a change can have.

## Main results

* `Mutation.applyRuns_outcome`: these are all.
* `StoredRuns.exists_object_addEach`, `StoredRuns.remove_cases`: what comes of additions and of a
  removal.
-/

namespace SymbolSets

/-- What a request for a change with some operands can do to the set `o`. -/
inductive Mutation.Outcome (σ : Store) (isFrozen : StoredRuns → Bool) (o : StoredRuns) :
    Mutation → List Value → Effect StoredRuns → Prop
  /-- There are too many operands or too few. -/
  | refused {m vs} : Outcome σ isFrozen o m vs (.refusal o .operandCount)
  /-- A frozen set is not changed. -/
  | rejected {m vs} (change : Change) (ho : isFrozen o = true) :
      Outcome σ isFrozen o m vs (o.rejection change)
  | add {vs} (lo hi : Value) :
      Outcome σ isFrozen o .add vs (o.addEach isFrozen 1 (.items [Value.interval? lo hi]))
  | addAll {v added} (h : σ.additions? v = .ok added) :
      Outcome σ isFrozen o .addAll [v] (o.addEach isFrozen added.count added)
  | unlisted {v fault} (h : σ.additions? v = .error fault) :
      Outcome σ isFrozen o .addAll [v] (.refusal o fault)
  | remove (v : Value) (ho : isFrozen o = false) : Outcome σ isFrozen o .remove [v] (o.remove v)
  | clear (ho : isFrozen o = false) : Outcome σ isFrozen o .clear [] (.done (o.withRuns .empty))
  | freeze : Outcome σ isFrozen o .freeze [] (o.assignMark isFrozen (.bool true))
  | mark (v : Value) : Outcome σ isFrozen o .mark [v] (o.assignMark isFrozen v)

/-- **The outcomes of a request for a change are all there are.** -/
theorem Mutation.applyRuns_outcome (m : Mutation) (σ : Store) (isFrozen : StoredRuns → Bool)
    (o : StoredRuns) (vs : List Value) :
    m.Outcome σ isFrozen o vs (m.applyRuns σ isFrozen o vs) := by
  rw [applyRuns.eq_def]
  split
  · exact .add _ _
  · exact .add _ _
  · exact .add _ _
  · split
    · exact .addAll ‹_›
    · exact .unlisted ‹_›
  · split_ifs with ho
    · exact .rejected .remove ho
    · exact .remove _ (Bool.eq_false_iff.2 ho)
  · split_ifs with ho
    · exact .rejected .clear ho
    · exact .clear (Bool.eq_false_iff.2 ho)
  · exact .freeze
  · exact .mark _
  · exact .refused

namespace StoredRuns

/-- **What additions leave.** However many intervals are added before they end, the set is the one
with these added. -/
theorem exists_object_addEach (isFrozen : StoredRuns → Bool) (count : Nat) (o : StoredRuns)
    (added : Additions) : ∃ xs : List Span, xs.length ≤ count ∧
      (o.addEach isFrozen count added).object = o.withRuns (o.insertAll xs) := by
  induction count generalizing o added with
  | zero => exact ⟨[], Nat.le_refl 0, rfl⟩
  | succ count ih =>
    rw [addEach]
    split
    · exact ⟨[], Nat.zero_le _, rfl⟩
    · exact ⟨[], Nat.zero_le _, rfl⟩
    · rename_i x rest _
      split_ifs with hfrozen
      · exact ⟨[], Nat.zero_le _, rfl⟩
      · obtain ⟨xs, hlength, hobject⟩ := ih (o.withRuns (o.insert x)) rest
        exact ⟨x :: xs, Nat.succ_le_succ hlength, hobject⟩

/-- **What a removal does.** What is no integer may still be one in another form, or be no bound of
a run, or it cannot be compared. -/
theorem remove_cases (o : StoredRuns) (v : Value) :
    (∃ n, o.remove v = .done (o.withRuns (o.erase n))) ∨ o.remove v = .done o ∨
      o.remove v = .refusal o (.boundsNotIntegers .int .double) ∨
      o.remove v = .refusal o .notNumeric := by
  rw [remove.eq_def]
  split
  · exact .inl ⟨_, rfl⟩
  · rw [removeDouble]
    split
    · exact .inr (.inl rfl)
    · split_ifs
      · exact .inl ⟨_, rfl⟩
      · exact .inl ⟨_, rfl⟩
      · exact .inr (.inr (.inl rfl))
  · split_ifs
    · exact .inr (.inl rfl)
    · exact .inr (.inr (.inr rfl))

end StoredRuns

end SymbolSets
