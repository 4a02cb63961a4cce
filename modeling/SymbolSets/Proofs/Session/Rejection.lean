import SymbolSets.Proofs.Session.Permanence

/-!
# Calls on a frozen set

A frozen set rejects every call that adds or removes integers, also one that would leave the set as
it is: an inverted range, an integer that is missing, the clearing of an empty set. The test is made
before the call is looked at.

Adding a collection makes the test once for each interval that it adds. So there is one call that is
not rejected: adding a collection that has no items. It answers with the set like any other addition
of a collection. In no case does the set change.

## Main definitions

* `Call.change`: the change that a rejected call is said to attempt.

## Main results

* `Mutation.applyRuns_of_isFrozen`: what a call does to a frozen set.
* `Step.report_of_isFrozen`: what a step reports that makes a call on a frozen set.
-/

namespace SymbolSets

/-- The change that the call attempts. -/
def Call.change : Call → Change
  | .add _ | .addAll _ => .add
  | .remove _ => .remove
  | .clear => .clear

variable {σ : Store} {place : Nat} {o : StoredRuns}

/-! ### Collections that add nothing -/

/-- A collection of integers adds no interval only if it has no items. -/
theorem Store.eq_nil_iff_of_intervals? (hσ : σ.Canonical) {v : Value} {items : List Value}
    (h : σ.items? v = .ok items) (hints : ∀ w ∈ items, w.int?.isSome) {added : Additions}
    {xs : List Span} (hadded : σ.additions? v = .ok added) (hxs : added.intervals? = .ok xs) :
    xs = [] ↔ items.filterMap Value.int? = [] := by
  rcases Store.additions?_cases_of_items? h with ⟨i, rfl⟩ | ⟨p, rfl⟩ | hadditions
  · cases h
    cases hadded
    rw [Additions.intervals?_items_ok] at hxs
    cases hxs
    rw [filterMap_int?_map_int, ← Runs.eq_nil_iff_elements (hσ.runsAt i), ← Store.runs_spelledAt,
      SpelledRuns.runs, List.map_eq_nil_iff]
  · cases h
    cases hadded
    cases hxs
    rw [filterMap_int?_map_int, List.map_eq_nil_iff]
  · cases hadded.symm.trans hadditions
    rw [Additions.intervals?_items_single hints] at hxs
    cases hxs
    rw [List.map_eq_nil_iff]

/-! ### One call -/

namespace StoredRuns

variable {isFrozen : StoredRuns → Bool}

/-- A frozen set rejects the first interval, if there is one. -/
theorem addEach_of_isFrozen (ho : isFrozen o = true) {added : Additions} {xs : List Span}
    (h : added.intervals? = .ok xs) :
    o.addEach isFrozen xs.length added = if xs = [] then .done o else o.rejection .add := by
  cases xs with
  | nil => rw [addEach_of_intervals?_nil h, if_pos rfl]
  | cons x xs =>
    obtain ⟨rest, -, heq⟩ := addEach_of_intervals?_cons h xs.length
    rw [List.length_cons, heq, if_pos ho, if_neg (List.cons_ne_nil x xs)]

end StoredRuns

namespace Mutation

variable {isFrozen : StoredRuns → Bool}

/-- A range is rejected whatever its bounds are. -/
theorem addRange_of_isFrozen (ho : isFrozen o = true) {lo hi : Value} {c : Call}
    (hc : (Value.interval? lo hi).toOption.map (fun x => .add x.interval) = some c) :
    o.addEach isFrozen 1 (.items [Value.interval? lo hi]) =
      if c = .addAll [] then .done o else o.rejection c.change := by
  obtain ⟨x, hx, rfl⟩ := Option.map_eq_some_iff.1 hc
  cases hlohi : Value.interval? lo hi with
  | error fault =>
    rw [hlohi] at hx
    cases hx
  | ok y =>
    have hy : (Additions.items [.ok y]).intervals? = .ok [y] := rfl
    refine (StoredRuns.addEach_of_isFrozen ho hy).trans ?_
    simp [Call.change]

/-- **What a call does to a frozen set.** -/
theorem applyRuns_of_isFrozen (hσ : σ.Canonical) (ho : isFrozen o = true) {m : Mutation}
    {operands : List Value} {c : Call} (hc : m.call? σ operands = some c) :
    m.applyRuns σ isFrozen o operands =
      if c = .addAll [] then .done o else o.rejection c.change := by
  rw [call?.eq_def] at hc
  split at hc
  · exact addRange_of_isFrozen ho hc
  · exact addRange_of_isFrozen ho hc
  · rename_i lo hi hne
    rw [applyRuns]
    · exact addRange_of_isFrozen ho hc
    · exact hne
  · split at hc
    · split_ifs at hc with hints
      cases hc
      have hitems := List.all_eq_true.1 hints
      obtain ⟨added, xs, hadded, hxs, -⟩ := Store.exists_additions?_of_items? ‹_› hitems
      have hnil := Store.eq_nil_iff_of_intervals? hσ ‹_› hitems hadded hxs
      simp only [applyRuns, hadded, Additions.count_of_intervals? hxs]
      rw [StoredRuns.addEach_of_isFrozen ho hxs]
      simp only [hnil, Call.addAll.injEq, Call.change]
    · cases hc
  · obtain ⟨n, hn, rfl⟩ := Option.map_eq_some_iff.1 hc
    simp [applyRuns, ho, Call.change]
  · cases hc
    simp [applyRuns, ho, Call.change]
  · cases hc

/-- Only the request to add a collection is read as one. -/
theorem eq_addAll_of_call? {m : Mutation} {operands : List Value} {items : List Int}
    (hc : m.call? σ operands = some (.addAll items)) : m = .addAll := by
  rw [call?.eq_def] at hc
  split at hc
  · simp at hc
  · simp at hc
  · simp at hc
  · rfl
  · simp at hc
  · cases hc
  · cases hc

end Mutation

/-! ### One step -/

/-- **A frozen set rejects every call but one, and stays as it is.** The call that is not rejected
adds a collection without items. -/
theorem Step.report_of_isFrozen (hσ : σ.Reachable) (ho : σ.runs[place]? = some o)
    (hfrozen : σ.isFrozen place o = true) {s : Step} {c : Call} (h : s.call? σ place = some c) :
    (c ≠ .addAll [] → (s.run σ).2 =
      ⟨.error (.frozen c.change), [.rejected c.change (o.description true)]⟩) ∧
    (c = .addAll [] → (s.run σ).2 = ⟨.ok (.runs place), []⟩) ∧
    (s.run σ).1.runs[place]? = some o := by
  obtain ⟨name, m, vs, τ, hs, hvs, hname, hc⟩ := exists_of_call? h
  have hext : σ.Extends τ := Operand.extends_of_values? hvs
  have hτ : τ.isFrozen place o = true := by rw [hext.isFrozen_eq hσ.closed ho, hfrozen]
  have hcanonical : τ.Canonical :=
    Operand.values?_keeps Store.keptByReading_canonical _ hσ.canonical hvs
  -- What the request does is known, and the step writes it back and reports it.
  have heffect := Mutation.applyRuns_of_isFrozen hcanonical hτ hc
  have hrun := s.run_mutate hs hvs hname ho
  obtain ⟨hp, -⟩ := s.stored_run_mutate hs hvs hname ho
  rw [heffect] at hrun hp
  refine ⟨fun hne => ?_, fun heq => ?_, ?_⟩
  · rw [hrun, if_neg hne]
    rfl
  · obtain rfl : m = .addAll := Mutation.eq_addAll_of_call? (heq ▸ hc)
    rw [hrun, if_pos heq]
    rfl
  · rw [hp]
    split_ifs with heq
    · rfl
    · rfl

/-- A frozen set of `1` to `5` rejects the removal of `9`, and not an addition of nothing. -/
theorem Step.report_of_isFrozen_absent :
    let σ := Session.run .initial
      [⟨.make .range, [.int 1, .int 5], some "s"⟩, ⟨.send "s" (.mutate .freeze), [], none⟩]
    let remove : Step := ⟨.send "s" (.mutate .remove), [.int 9], none⟩
    let addAll : Step := ⟨.send "s" (.mutate .addAll), [.list []], none⟩
    (remove.run σ).2.result = .error (.frozen .remove) ∧
      (addAll.run σ).2.result = .ok (.runs 2) ∧
      (remove.run σ).1.runs[2]? = some ⟨.plain [⟨1, 5⟩], .bool true⟩ := by
  intro σ remove addAll
  have ho : σ.runs[2]? = some ⟨.plain [⟨1, 5⟩], .bool true⟩ := by rfl
  have hσ : σ.Reachable := ⟨_, rfl⟩
  have hremove : remove.call? σ 2 = some (.remove 9) := by rfl
  have haddAll : addAll.call? σ 2 = some (.addAll []) := by rfl
  obtain ⟨hrejected, -, hstays⟩ := Step.report_of_isFrozen hσ ho rfl hremove
  obtain ⟨-, haccepted, -⟩ := Step.report_of_isFrozen hσ ho rfl haddAll
  refine ⟨?_, ?_, hstays⟩
  · rw [hrejected nofun]
    rfl
  · rw [haccepted rfl]

/-- Not every call on a frozen set is rejected: the set that is empty for good takes an empty
list. -/
theorem Step.not_rejected_of_isFrozen :
    ¬ ∀ {σ : Store} {place : Nat} {o : StoredRuns} {s : Step} {c : Call}, σ.Reachable →
      σ.runs[place]? = some o → σ.isFrozen place o = true → s.call? σ place = some c →
        (s.run σ).2.result = .error (.frozen c.change) := by
  intro h
  let addAll : Step := ⟨.send "EMPTY_SET" (.mutate .addAll), [.list []], none⟩
  have ho : Store.initial.runs[0]? = some Store.emptySet := rfl
  have hcall : addAll.call? .initial 0 = some (.addAll []) := by rfl
  have hresult : (addAll.run .initial).2.result = .ok (.runs 0) := by rfl
  have hrejected := h ⟨[], Session.run_nil _⟩ ho rfl hcall
  cases hresult.symm.trans hrejected

end SymbolSets
