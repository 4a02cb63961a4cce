import SymbolSets.Proofs.Runs.Position
import SymbolSets.Proofs.Runs.Search
import SymbolSets.Proofs.Session.Canonical

/-!
# Membership in stored sets

Whether a stored set holds an integer is found by bisection. It can also be read off the row of its
items, or found by a look at each run; all four answers are the same. Only integers are members: of
any other value the answer is no, and no fault. The least and the greatest element are the ends of
the row, and an empty set has neither.

## Main definitions

* `Query.FindsEnds`: the answers about the ends of a set that lists given integers.

## Main results

* `Query.answer_contains`, `Query.answer_member`: both questions are answered by bisection.
* `Store.membership_agrees`: four ways to look for an integer, and the ends of a set.
-/

namespace SymbolSets

variable {σ : Store} {i : Nat} {s : StoredRuns} {v : Value} {n : Int}

namespace Query

theorem answer_contains (hs : σ.runs[i]? = some s) (hv : v.int? = some n) :
    Query.answer σ .contains (.runs i) [v] = .ok (.value (.bool (s.runs.contains n))) := by
  simp only [answer, answerObject, hs, answerRuns, Runs.admits?, hv]
  rfl

theorem answer_member (hs : σ.runs[i]? = some s) (hv : v.int? = some n) :
    Query.answer σ .member (.runs i) [v] = .ok (.value (.bool (s.runs.contains n))) := by
  simp only [answer, Store.holds?, hv, Store.runsAt_eq_of_getElem? hs]
  rfl

theorem answer_member_of_int?_eq_none (hv : v.int? = none) :
    Query.answer σ .member (.runs i) [v] = .ok (.value (.bool false)) := by
  simp only [answer, Store.holds?, hv]
  rfl

/-- The set at `i`, which lists `ns`, finds the ends of this row, each as an integer or as a truth
value in its place, or there is nothing to find. What lies beyond an end is not in the set. -/
structure FindsEnds (σ : Store) (i : Nat) (ns : List Int) : Prop where
  least : ∃ found : Option Bound, found.map Bound.toInt = ns.head? ∧
    answer σ .least (.runs i) [] =
      found.elim (.error (.emptySet .least)) fun b => .ok (.value (.ofBound b))
  greatest : ∃ found : Option Bound, found.map Bound.toInt = ns.getLast? ∧
    answer σ .greatest (.runs i) [] =
      found.elim (.error (.emptySet .greatest)) fun b => .ok (.value (.ofBound b))
  outside : ∀ {least greatest lo hi n}, answer σ .least (.runs i) [] = .ok (.value least) →
    answer σ .greatest (.runs i) [] = .ok (.value greatest) → least.int? = some lo →
      greatest.int? = some hi → n < lo ∨ hi < n →
        answer σ .contains (.runs i) [.int n] = .ok (.value (.bool false))

theorem answer_least (hs : σ.runs[i]? = some s) :
    Query.answer σ .least (.runs i) [] =
      s.least?.elim (.error (.emptySet .least)) fun b => .ok (.value (.ofBound b)) := by
  simp only [answer, answerObject, hs, answerRuns]

theorem answer_greatest (hs : σ.runs[i]? = some s) :
    Query.answer σ .greatest (.runs i) [] =
      s.greatest?.elim (.error (.emptySet .greatest)) fun b => .ok (.value (.ofBound b)) := by
  simp only [answer, answerObject, hs, answerRuns]

/-- **The ends of a set** are those of the row of its items. -/
theorem findsEnds (hs : σ.runs[i]? = some s) (h : s.runs.Canonical) :
    FindsEnds σ i s.runs.elements where
  least := ⟨_, s.map_toInt_least?.trans (Runs.head?_elements h).symm, answer_least hs⟩
  greatest := ⟨_, s.map_toInt_greatest?.trans (Runs.getLast?_elements h).symm, answer_greatest hs⟩
  outside {_ _ lo hi n} hleast hgreatest hlo hhi hn := by
    rw [answer_least hs] at hleast
    rw [answer_greatest hs] at hgreatest
    obtain ⟨a, ha, ⟨⟩⟩ := elim_eq_ok_iff.1 hleast
    obtain ⟨b, hb, ⟨⟩⟩ := elim_eq_ok_iff.1 hgreatest
    rw [Value.int?_ofBound] at hlo hhi
    have hhead : s.runs.elements.head? = some lo := by
      rw [Runs.head?_elements h, ← s.map_toInt_least?, ha]
      exact hlo
    have hlast : s.runs.elements.getLast? = some hi := by
      rw [Runs.getLast?_elements h, ← s.map_toInt_greatest?, hb]
      exact hhi
    have hmissing : ¬ s.runs.contains n = true := by
      rw [Runs.contains_iff h, ← Runs.mem_elements]
      intro hmem
      have hle := Runs.le_of_head? (Runs.pairwise_elements h) hhead hmem
      have hge := Runs.le_of_getLast? (Runs.pairwise_elements h) hlast hmem
      omega
    rw [answer_contains hs (Value.int?_int n), Bool.eq_false_iff.2 hmissing]

end Query

/-- **Membership agrees however it is asked for.** An integer, or a truth value in its place, is
found by bisection if and only if it is among the items of the set, and if and only if one of the
runs holds it. No other value is a member. The least and the greatest element are the first and the
last item; an empty set has neither, and no set holds anything beyond them. -/
theorem Store.membership_agrees (hσ : σ.Reachable) (hs : σ.runs[i]? = some s) :
    σ.items? (.runs i) = .ok (s.runs.elements.map .int) ∧
      (∀ {v n}, v.int? = some n → ∃ b,
        Query.answer σ .contains (.runs i) [v] = .ok (.value (.bool b)) ∧
          Query.answer σ .member (.runs i) [v] = .ok (.value (.bool b)) ∧
          (b = true ↔ n ∈ s.runs.elements) ∧ (b = true ↔ ∃ x ∈ s.runs, x.lo ≤ n ∧ n ≤ x.hi)) ∧
      (∀ {v}, v.int? = none →
        Query.answer σ .member (.runs i) [v] = .ok (.value (.bool false))) ∧
      Query.FindsEnds σ i s.runs.elements := by
  have h : s.runs.Canonical := hσ.canonical s (Array.mem_of_getElem? hs)
  refine ⟨?_, fun {v n} hv => ?_, Query.answer_member_of_int?_eq_none, Query.findsEnds hs h⟩
  · rw [items?, runsAt_eq_of_getElem? hs]
  · refine ⟨_, Query.answer_contains hs hv, Query.answer_member hs hv, ?_, Runs.contains_iff h⟩
    rw [Runs.contains_iff h, Runs.mem_elements]

/-- A set that is frozen after a removal has split a run, and the empty set. -/
theorem Store.membership_agrees_split :
    let σ := Session.run .initial
      [⟨.make .copy, [.list [.int (-1), .int 3, .int 9, .int 2, .int 8, .int 7, .bool true]],
        some "s"⟩,
       ⟨.send "s" (.mutate .remove), [.int 8], none⟩,
       ⟨.send "s" (.mutate .freeze), [], none⟩]
    (∃ b, Query.answer σ .contains (.runs 2) [.bool true] = .ok (.value (.bool b)) ∧
      (b = true ↔ 1 ∈ Runs.elements [⟨-1, -1⟩, ⟨1, 3⟩, ⟨7, 7⟩, ⟨9, 9⟩])) ∧
    (∀ x, Query.answer σ .member (.runs 2) [.double x] = .ok (.value (.bool false))) ∧
    (∃ b : Bound, b.toInt = 9 ∧
      Query.answer σ .greatest (.runs 2) [] = .ok (.value (.ofBound b))) ∧
    Query.answer σ .least (.runs 0) [] = .error (.emptySet .least) := by
  intro σ
  have hs : σ.runs[2]? = some ⟨.plain [⟨-1, -1⟩, ⟨1, 3⟩, ⟨7, 7⟩, ⟨9, 9⟩], .bool true⟩ := by rfl
  have hempty : σ.runs[0]? = some ⟨.empty, .bool true⟩ := by rfl
  have hσ : σ.Reachable := ⟨_, rfl⟩
  obtain ⟨-, hmember, hother, hends⟩ := membership_agrees hσ hs
  obtain ⟨-, -, -, hnoEnds⟩ := membership_agrees hσ hempty
  obtain ⟨b, hcontains, -, hitem, -⟩ := hmember (v := .bool true) rfl
  obtain ⟨found, hfound, hgreatest⟩ := hends.greatest
  obtain ⟨c, rfl, hc⟩ := Option.map_eq_some_iff.1 hfound
  obtain ⟨missing, hmissing, hleast⟩ := hnoEnds.least
  obtain rfl := Option.map_eq_none_iff.1 hmissing
  exact ⟨⟨b, hcontains, hitem⟩, fun x => hother rfl, ⟨c, hc, hgreatest⟩, hleast⟩

end SymbolSets
