import SymbolSets.Bisection

/-!
# Where a test turns false

A test that holds of every item before one of which it holds is true of a leading part of a row and
false after it. Bisection finds the position where it turns.

## Main results

* `bisect_mem`: the position lies in the range that is searched.
* `lt_bisect_iff`: the test holds of the items before the position and of no other.
-/

namespace SymbolSets

variable {α : Type} {p : α → Bool} {xs : Array α}

theorem bisect_mem {lo hi : Nat} (h : hi ≤ xs.size) (hle : lo ≤ hi) :
    lo ≤ bisect p xs lo hi h ∧ bisect p xs lo hi h ≤ hi := by
  fun_induction bisect p xs lo hi h with
  | case1 lo hi h hlt hmid hp ih =>
    have := ih (by omega)
    omega
  | case2 lo hi h hlt hmid hp ih =>
    have := ih (by omega)
    omega
  | case3 lo hi h hlt => exact ⟨Nat.le_refl lo, hle⟩

/-- A test that holds of an item holds of every item before it, if it turns only once. -/
private theorem test_of_le (hp : xs.toList.Pairwise fun a b => p b = true → p a = true) {i j : Nat}
    (hij : i ≤ j) (hj : j < xs.size) (h : p xs[j] = true) :
    p (xs[i]) = true := by
  rcases Nat.lt_or_eq_of_le hij with hlt | rfl
  · exact List.pairwise_iff_getElem.1 hp i j (by simp; omega) (by simpa using hj) hlt h
  · exact h

/-- **Bisection finds where a test turns false.** The induction is on the search. -/
theorem lt_bisect_iff (hp : xs.toList.Pairwise fun a b => p b = true → p a = true) {lo hi : Nat}
    (h : hi ≤ xs.size) {i : Nat} (hlo : lo ≤ i) (hhi : i < hi) (hsize : i < xs.size) :
    i < bisect p xs lo hi h ↔ p xs[i] = true := by
  fun_induction bisect p xs lo hi h with
  | case1 lo hi h hlt hmid htrue ih =>
    by_cases hi' : i ≤ (lo + hi) / 2
    · have hrange : (lo + hi) / 2 + 1 ≤ hi := by omega
      have hleft := (bisect_mem (p := p) h hrange).1
      exact iff_of_true (by omega) (test_of_le hp hi' hmid htrue)
    · exact ih (by omega) hhi
  | case2 lo hi h hlt hmid hfalse ih =>
    by_cases hi' : i < (lo + hi) / 2
    · exact ih hlo hi'
    · have hrange : lo ≤ (lo + hi) / 2 := by omega
      have hright := (bisect_mem (p := p) (Nat.le_of_lt hmid) hrange).2
      exact iff_of_false (by omega) fun htrue => hfalse (test_of_le hp (by omega) hsize htrue)
  | case3 lo hi h hlt => omega

end SymbolSets
