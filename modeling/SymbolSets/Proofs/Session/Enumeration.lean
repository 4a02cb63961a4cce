import Mathlib.Algebra.Group.Int.Defs
import Mathlib.Algebra.Group.Nat.Defs
import SymbolSets.Proofs.Runs.Position
import SymbolSets.Proofs.Session.Canonical

/-!
# Listing, counting and looking up

A stored set can be listed as a whole or in part, counted, and looked up by position. Each of these
goes over the runs in a way of its own, and they all agree on one row: the integers of the set in
ascending order, each of them once.

Some answers are limited. The length has to fit 64 bits, as a number and as that of a list, and so
has each integer that is asked for as such. The size, the look-up, the first few items and whether
there are any are free of these limits.

## Main definitions

* `Query.ListsAs`: a set lists a row of integers, whichever way it is asked for.
* `Query.CountsAs`: a set has a number of elements.
* `Query.FindsAt`, `Query.LooksUpIn`: the element at a position, and all look-ups.

## Main results

* `Query.listsAs`, `Query.countsAs`, `Query.looksUpIn`: the answers of each kind.
* `Store.enumeration_agrees`: all of them go by one row.
-/

namespace SymbolSets

variable {σ : Store} {i : Nat} {s : StoredRuns} {v : Value}

theorem countable?_eq (count : Nat) :
    countable? count = if count < 2 ^ 63 then .ok (count : Int) else .error .tooLarge := by
  have hfits : (count : Int) ≤ greatestWord ↔ count < 2 ^ 63 := by
    rw [greatestWord]
    omega
  simp only [countable?, hfits]

namespace Query

/-! ### Listing -/

/-- The set at `i` lists the integers `ns` in this order: as its items, as the first few of them, as
a list if its length fits 64 bits, as they are to be kept elsewhere, and as numbers of 64 bits if
all of them are. -/
structure ListsAs (σ : Store) (i : Nat) (ns : List Int) : Prop where
  items : σ.items? (.runs i) = .ok (ns.map .int)
  leading : ∀ n, σ.leading? n (.runs i) = .ok ((ns.take n).map .int)
  take : ∀ n : Nat, n < 2 ^ 63 →
    answer σ .take (.runs i) [.int n] = .ok (.items ((ns.take n).map .int))
  elements : answer σ .elements (.runs i) [] =
    if ns.length < 2 ^ 63 then .ok (.items (ns.map .int)) else .error .tooLarge
  distinct : answer σ .distinct (.runs i) [] = .ok (.items (ns.map .int))
  words : answer σ .words (.runs i) [] =
    if ∀ n ∈ ns, -2 ^ 63 ≤ n ∧ n < 2 ^ 63 then .ok (.items (ns.map .int)) else .error .tooLarge

theorem leading?_runs (hs : σ.runs[i]? = some s) (n : Nat) :
    σ.leading? n (.runs i) = .ok ((s.runs.elements.take n).map .int) := by
  rw [Store.leading?, Store.runsAt_eq_of_getElem? hs, Runs.take_eq_take_elements]

theorem limit?_natCast {n : Nat} (hn : n < 2 ^ 63) : limit? (.int n) = .ok (some n) := by
  have hword : ¬ ((n : Int) < leastWord ∨ greatestWord < n ∨ (n : Int) = -1) := by
    rw [leastWord, greatestWord]
    omega
  simp only [limit?, Value.int?_int, if_neg hword, if_neg (Int.not_lt.2 (Int.natCast_nonneg n)),
    Int.toNat_natCast]

theorem answer_take (hs : σ.runs[i]? = some s) {n : Nat} (hn : n < 2 ^ 63) :
    answer σ .take (.runs i) [.int n] = .ok (.items ((s.runs.elements.take n).map .int)) := by
  simp only [answer, take?, leading?_runs hs, limit?_natCast hn]
  rfl

theorem answer_elements (hs : σ.runs[i]? = some s) : answer σ .elements (.runs i) [] =
    if s.runs.elements.length < 2 ^ 63 then .ok (.items (s.runs.elements.map .int))
    else .error .tooLarge := by
  simp only [answer, answerObject, hs, answerRuns, Runs.size_eq_length_elements, countable?_eq]
  split_ifs <;> rfl

/-- The bounds of the runs tell whether all elements fit 64 bits, since no run is empty. -/
theorem forall_isWord_iff {xs : Runs} (h : xs.Canonical) :
    (∀ x ∈ xs, leastWord ≤ x.lo ∧ x.hi ≤ greatestWord) ↔
      ∀ n ∈ xs.elements, -2 ^ 63 ≤ n ∧ n < 2 ^ 63 := by
  rw [leastWord, greatestWord]
  constructor
  · intro hbounds n hn
    obtain ⟨x, hx, hlo, hhi⟩ := Runs.mem_elements.1 hn
    have hxbounds := hbounds x hx
    omega
  · intro helements x hx
    have hle := h.lo_le_hi hx
    have hlo := helements x.lo (Runs.mem_elements.2 ⟨x, hx, Interval.lo_mem hle⟩)
    have hhi := helements x.hi (Runs.mem_elements.2 ⟨x, hx, Interval.hi_mem hle⟩)
    omega

theorem answer_words (hs : σ.runs[i]? = some s) (h : s.runs.Canonical) :
    answer σ .words (.runs i) [] =
      if ∀ n ∈ s.runs.elements, -2 ^ 63 ≤ n ∧ n < 2 ^ 63 then
        .ok (.items (s.runs.elements.map .int))
      else .error .tooLarge := by
  simp only [answer, answerObject, hs, answerRuns, List.all_eq_true, Bool.and_eq_true,
    decide_eq_true_iff, forall_isWord_iff h, listed]

/-- **Listing goes by the row of the elements.** -/
theorem listsAs (hs : σ.runs[i]? = some s) (h : s.runs.Canonical) :
    ListsAs σ i s.runs.elements where
  items := by rw [Store.items?, Store.runsAt_eq_of_getElem? hs]
  leading := leading?_runs hs
  take _ hn := answer_take hs hn
  elements := answer_elements hs
  distinct := by
    simp only [answer, answerObject, hs, answerRuns, listed]
  words := answer_words hs h

/-! ### Counting -/

/-- The set at `i` has `count` elements by its size, by its length if this fits 64 bits, and as a
condition. -/
structure CountsAs (σ : Store) (i count : Nat) : Prop where
  size : answer σ .size (.runs i) [] = .ok (.value (.int count))
  length : answer σ .length (.runs i) [] =
    if count < 2 ^ 63 then .ok (.value (.int count)) else .error .tooLarge
  isTrue : answer σ .isTrue (.runs i) [] = .ok (.value (.bool (0 < count)))

theorem answer_length (hs : σ.runs[i]? = some s) : answer σ .length (.runs i) [] =
    if s.runs.elements.length < 2 ^ 63 then .ok (.value (.int s.runs.elements.length))
    else .error .tooLarge := by
  simp only [answer, Store.count?, Store.runsAt_eq_of_getElem? hs, Runs.size_eq_length_elements,
    Except.bind, countable?_eq]
  split_ifs <;> rfl

theorem answer_isTrue (hs : σ.runs[i]? = some s) (h : s.runs.Canonical) :
    answer σ .isTrue (.runs i) [] = .ok (.value (.bool (0 < s.runs.elements.length))) := by
  have htrue : (!s.runs.isEmpty) = decide (0 < s.runs.elements.length) := by
    rw [Bool.eq_iff_iff, Bool.not_eq_true', ← Bool.not_eq_true, List.isEmpty_iff,
      Runs.eq_nil_iff_elements h, decide_eq_true_iff, List.length_pos_iff]
  simp only [answer, Store.isTrue, Store.runsAt_eq_of_getElem? hs, htrue]

/-- **Counting goes by the length of the row.** -/
theorem countsAs (hs : σ.runs[i]? = some s) (h : s.runs.Canonical) :
    CountsAs σ i s.runs.elements.length where
  size := by
    simp only [answer, answerObject, hs, answerRuns, Runs.size_eq_length_elements]
  length := answer_length hs
  isTrue := answer_isTrue hs h

/-! ### Looking up -/

/-- The set at `i` has the integer `n` at the position that `v` names. -/
def FindsAt (σ : Store) (i : Nat) (v : Value) (n : Int) : Prop :=
  answer σ .get (.runs i) [v] = .ok (.value (.int n))

/-- The set at `i`, which holds the integers of the runs `xs` and lists them as `ns`, is looked up
by position. -/
structure LooksUpIn (σ : Store) (i : Nat) (xs : Runs) (ns : List Int) : Prop where
  inside : ∀ {v : Value} {k : Nat} (hk : k < ns.length), v.int? = some (k : Int) →
    FindsAt σ i v ns[k]
  outside : ∀ {v : Value} {k : Int}, v.int? = some k → k < 0 ∨ ns.length ≤ k → FindsAt σ i v (-1)
  ascending : ∀ {k l : Nat} {m n : Int}, k < l → l < ns.length → FindsAt σ i (.int k) m →
    FindsAt σ i (.int l) n → m < n
  counting : ∀ {n : Int}, xs.Holds n →
    xs.countBelow n < ns.length ∧ FindsAt σ i (.int (xs.countBelow n)) n
  counted : ∀ {k : Nat} {n : Int}, k < ns.length → FindsAt σ i (.int k) n →
    xs.Holds n ∧ xs.countBelow n = k

theorem answer_get (hs : σ.runs[i]? = some s) {k : Int} (hv : v.int? = some k) :
    FindsAt σ i v (if k < 0 then -1 else s.runs.elements[k.toNat]?.getD (-1)) := by
  simp only [FindsAt, answer, answerObject, hs, answerRuns, position?, hv, Runs.elementAt,
    Runs.get?_eq_getElem?_elements, noElement]
  rfl

/-- What is found at a position is determined by the position. -/
theorem FindsAt.unique {m n : Int} (hm : FindsAt σ i v m) (hn : FindsAt σ i v n) : m = n := by
  cases hm.symm.trans hn
  rfl

theorem findsAt_getElem (hs : σ.runs[i]? = some s) {k : Nat} (hk : k < s.runs.elements.length)
    (hv : v.int? = some (k : Int)) : FindsAt σ i v s.runs.elements[k] := by
  have hfound := answer_get hs hv
  rwa [if_neg (Int.not_lt.2 (Int.natCast_nonneg k)), Int.toNat_natCast,
    List.getElem?_eq_getElem hk] at hfound

/-- **Looking up goes by the positions in the row.** -/
theorem looksUpIn (hs : σ.runs[i]? = some s) (h : s.runs.Canonical) :
    LooksUpIn σ i s.runs s.runs.elements where
  inside := findsAt_getElem hs
  outside {v k} hv hk := by
    have hfound := answer_get hs hv
    by_cases hneg : k < 0
    · rwa [if_pos hneg] at hfound
    · have hge : s.runs.elements.length ≤ k.toNat := by omega
      rwa [if_neg hneg, List.getElem?_eq_none hge] at hfound
  ascending {k l m n} hkl hl hm hn := by
    have hk := Nat.lt_trans hkl hl
    rw [hm.unique (findsAt_getElem hs hk rfl), hn.unique (findsAt_getElem hs hl rfl)]
    exact List.pairwise_iff_getElem.1 (Runs.pairwise_elements h) k l hk hl hkl
  counting {n} hn := by
    obtain ⟨k, hk, rfl⟩ := List.mem_iff_getElem.1 (Runs.mem_elements.2 hn)
    rw [Runs.countBelow_getElem h hk]
    exact ⟨hk, findsAt_getElem hs hk rfl⟩
  counted {k n} hk hn := by
    rw [hn.unique (findsAt_getElem hs hk rfl)]
    exact ⟨Runs.mem_elements.1 (List.getElem_mem hk), Runs.countBelow_getElem h hk⟩

end Query

/-- **Listing, counting and looking up agree.** The elements of a set make up one ascending row, in
which each integer that the set holds stands once. The set is listed in this order. Its size is the
length of the row, which is the sum of the lengths of the runs, and the set counts as true if the
row is not empty. The integer at a position is the one that stands there in the row, and its
position is the number of elements below it; a position outside the row gives `-1`. -/
theorem Store.enumeration_agrees (hσ : σ.Reachable) (hs : σ.runs[i]? = some s) :
    s.runs.elements.Pairwise (· < ·) ∧ s.runs.elements.Nodup ∧
      (∀ n, n ∈ s.runs.elements ↔ s.runs.Holds n) ∧
      s.runs.elements.length = s.runs.size ∧
      s.runs.elements.length = (s.runs.map Interval.length).foldl (· + ·) 0 ∧
      Query.ListsAs σ i s.runs.elements ∧
      Query.CountsAs σ i s.runs.elements.length ∧
      Query.LooksUpIn σ i s.runs s.runs.elements := by
  have h : s.runs.Canonical := hσ.canonical s (Array.mem_of_getElem? hs)
  refine ⟨Runs.pairwise_elements h, Runs.nodup_elements h, fun n => Runs.mem_elements,
    (Runs.size_eq_length_elements _).symm, Runs.length_elements _, Query.listsAs hs h,
    Query.countsAs hs h, Query.looksUpIn hs h⟩

/-- A set of several runs in which `-1` is an element, and a set too large to have a length. -/
theorem Store.enumeration_agrees_split :
    let σ := Session.run .initial
      [⟨.make .copy, [.list [.int (-1), .int 3, .int 9, .int 2, .bool true]], some "s"⟩,
       ⟨.make .range, [.int 0, .int (2 ^ 63)], none⟩]
    Query.FindsAt σ 2 (.bool true) 1 ∧ Query.FindsAt σ 2 (.int 0) (-1) ∧
      Query.FindsAt σ 2 (.int 5) (-1) ∧
      Query.answer σ .length (.runs 2) [] = .ok (.value (.int 5)) ∧
      Query.answer σ .length (.runs 3) [] = .error .tooLarge ∧
      Query.answer σ .words (.runs 3) [] = .error .tooLarge := by
  intro σ
  have hσ : σ.Reachable := ⟨_, rfl⟩
  have hsplit : σ.runs[2]? = some ⟨.plain [⟨-1, -1⟩, ⟨1, 3⟩, ⟨9, 9⟩], .bool false⟩ := by rfl
  have hlarge : σ.runs[3]? = some ⟨.plain [⟨0, 2 ^ 63⟩], .bool false⟩ := by rfl
  obtain ⟨-, -, -, -, -, -, hcounts, hlooks⟩ := enumeration_agrees hσ hsplit
  obtain ⟨-, -, hmem, -, hsum, hlists, hlarge, -⟩ := enumeration_agrees hσ hlarge
  refine ⟨hlooks.inside (k := 1) (by decide) rfl, hlooks.inside (k := 0) (by decide) rfl,
    hlooks.outside rfl (.inr (by decide)), hcounts.length, ?_, ?_⟩
  · rw [hlarge.length, hsum]
    rfl
  · rw [hlists.words, if_neg]
    intro hwords
    have hgreatest : (2 : Int) ^ 63 ∈ Runs.elements [⟨0, 2 ^ 63⟩] := (hmem _).2 (by decide)
    exact absurd (hwords _ hgreatest).2 (Int.lt_irrefl _)

end SymbolSets
