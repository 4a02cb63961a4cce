import Mathlib.Data.List.Chain
import SymbolSets.Proofs.Bisection
import SymbolSets.Proofs.Enumerated.Order

/-!
# The numbers of a set that keeps its elements one by one

The elements of such a set begin with numbers that ascend. Sets that are made of lists, merged, or
filtered keep this form, and it is what a search among the elements relies on: a number is found
where it would stand. So the operations between two sets are right about numbers, whatever else is
an element.

## Main definitions

* `Enumerated.HasNumber`: whether one of the elements is a given number.
* `Enumerated.Ordered`: the numbers come first and ascend.

## Main results

* `Enumerated.pairwise_mergeOnto`, `Enumerated.hasNumber_mergeOnto`: what a merge is.
* `Enumerated.ordered_ofList`, `Enumerated.hasNumber_ofList`: the set of the elements of a list.
* `Enumerated.isAmong_iff`: a number is found if and only if it is there.
* `Enumerated.hasNumber_union`, `Enumerated.hasNumber_inter`, `Enumerated.hasNumber_diff`: the
  operations between two sets.
-/

namespace SymbolSets

namespace Enumerated

open Element

/-- One of the elements is the number `q`. -/
def HasNumber (es : List Element) (q : ℚ) : Prop :=
  ∃ e ∈ es, e.number? = some q

/-- The elements begin with numbers that ascend, and these are filed under no digest. -/
structure Ordered (es : Enumerated) : Prop where
  filed : ∀ e ∈ es, e.IsFiled
  pairwise : es.Pairwise Precedes

variable {runsAt : Nat → Runs} {done es fs xs ys : Enumerated} {x y e : Element} {q : ℚ}

/-! ### Numbers of lists -/

@[simp] theorem hasNumber_nil : ¬ HasNumber [] q :=
  fun h => List.not_mem_nil h.choose_spec.1

@[simp] theorem hasNumber_cons : HasNumber (e :: es) q ↔ e.number? = some q ∨ HasNumber es q := by
  simp [HasNumber]

@[simp] theorem hasNumber_append : HasNumber (es ++ fs) q ↔ HasNumber es q ∨ HasNumber fs q := by
  simp only [HasNumber, List.mem_append, or_and_right, exists_or]

@[simp] theorem hasNumber_reverse : HasNumber es.reverse q ↔ HasNumber es q := by
  simp only [HasNumber, List.mem_reverse]

theorem HasNumber.mono (h : HasNumber es q) (hsub : ∀ e ∈ es, e ∈ fs) : HasNumber fs q := by
  obtain ⟨e, he, hq⟩ := h
  exact ⟨e, hsub e he, hq⟩

/-! ### Ordered elements -/

theorem ordered_nil : Ordered [] :=
  ⟨fun _ he => absurd he List.not_mem_nil, .nil⟩

theorem Ordered.sublist (h : Ordered es) (hsub : fs.Sublist es) : Ordered fs :=
  ⟨fun e he => h.filed e (hsub.subset he), h.pairwise.sublist hsub⟩

theorem Ordered.filter (h : Ordered es) (p : Element → Bool) : Ordered (es.filter p) :=
  h.sublist List.filter_sublist

/-! ### Merges -/

/-- Of the elements from `y` on only the first one can be the same number as `x`, if `x` and `y` are
not ordered. -/
private theorem precedes_of_mem_eraseP (h : x.order y = .eq) (hys : (y :: ys).Pairwise Precedes)
    (he : e ∈ (y :: ys).eraseP (x.isSame runsAt)) : x.Precedes e := by
  have hnumber : y.number? = x.number? := (number?_eq_of_order_eq h).symm
  have hrest : ∀ f ∈ ys, y.Precedes f := (List.pairwise_cons.1 hys).1
  cases hx : x.number? with
  | some p =>
    rw [List.eraseP_cons_of_pos (isSame_of_order_eq runsAt h hx)] at he
    exact (hrest e he).congr_left hnumber
  | none =>
    rw [hx] at hnumber
    rcases List.mem_cons.1 (List.mem_of_mem_eraseP he) with rfl | he
    · exact precedes_of_number?_eq_none hnumber
    · exact precedes_of_number?_eq_none ((hrest e he).number?_eq_none hnumber)

/-- An element is erased only for a number that is the same. -/
private theorem hasNumber_cons_eraseP :
    x.number? = some q ∨ HasNumber (ys.eraseP (x.isSame runsAt)) q ↔
      x.number? = some q ∨ HasNumber ys q := by
  refine or_congr_right' fun hx => ⟨fun h => h.mono fun _ => List.mem_of_mem_eraseP, fun h => ?_⟩
  obtain ⟨e, he, hq⟩ := h
  refine ⟨e, (List.mem_eraseP_of_neg fun hsame => hx ?_).2 he, hq⟩
  rw [number?_eq_of_order_eq (order_eq_of_isSame hsame), hq]

/-- What precedes all that is left may be put behind what is done with. -/
private theorem pairwise_reverse_cons (h : (done.reverse ++ x :: xs).Pairwise Precedes)
    (hys : (done.reverse ++ ys).Pairwise Precedes) (hsub : ∀ e ∈ fs, e ∈ ys)
    (hfs : fs.Pairwise Precedes) (hx : ∀ e ∈ fs, x.Precedes e) :
    ((x :: done).reverse ++ fs).Pairwise Precedes := by
  obtain ⟨hdone, -, hdonex⟩ := List.pairwise_append.1 h
  obtain ⟨-, -, hdoneys⟩ := List.pairwise_append.1 hys
  rw [List.reverse_cons, List.append_assoc]
  refine List.pairwise_append.2 ⟨hdone, List.pairwise_cons.2 ⟨hx, hfs⟩, fun d hd e he => ?_⟩
  rcases List.mem_cons.1 he with rfl | he
  · exact hdonex d hd e List.mem_cons_self
  · exact hdoneys d hd e (hsub e he)

/-- **A merge is ordered.** What is done with comes before both sets all the time. -/
theorem pairwise_mergeOnto (hxs : (done.reverse ++ xs).Pairwise Precedes)
    (hys : (done.reverse ++ ys).Pairwise Precedes) (hxsFiled : ∀ e ∈ xs, e.IsFiled)
    (hysFiled : ∀ e ∈ ys, e.IsFiled) : (mergeOnto runsAt done xs ys).Pairwise Precedes := by
  fun_induction mergeOnto runsAt done xs ys with
  | case1 done ys =>
    rwa [List.reverseAux_eq]
  | case2 done x xs =>
    rwa [List.reverseAux_eq]
  | case3 done x xs y ys h ih =>
    have hx : x.Precedes y :=
      precedes_of_order_lt (hxsFiled x List.mem_cons_self) (hysFiled y List.mem_cons_self) h
    obtain ⟨-, hright, -⟩ := List.pairwise_append.1 hys
    refine ih ?_ (pairwise_reverse_cons hxs hys (fun e he => he) hright fun e he => ?_)
      (fun e he => hxsFiled e (List.mem_cons_of_mem x he)) hysFiled
    · rwa [List.reverse_cons, List.append_assoc]
    · rcases List.mem_cons.1 he with rfl | he
      · exact hx
      · exact hx.trans ((List.pairwise_cons.1 hright).1 e he)
  | case4 done x xs y ys h ih =>
    have hy : y.Precedes x :=
      precedes_of_order_gt (hxsFiled x List.mem_cons_self) (hysFiled y List.mem_cons_self) h
    obtain ⟨-, hleft, -⟩ := List.pairwise_append.1 hxs
    refine ih (pairwise_reverse_cons hys hxs (fun e he => he) hleft fun e he => ?_) ?_ hxsFiled
      (fun e he => hysFiled e (List.mem_cons_of_mem y he))
    · rcases List.mem_cons.1 he with rfl | he
      · exact hy
      · exact hy.trans ((List.pairwise_cons.1 hleft).1 e he)
    · rwa [List.reverse_cons, List.append_assoc]
  | case5 done x xs y ys h ih =>
    obtain ⟨-, hright, -⟩ := List.pairwise_append.1 hys
    refine ih ?_ (pairwise_reverse_cons hxs hys (fun e he => List.mem_of_mem_eraseP he)
      (hright.sublist List.eraseP_sublist) fun e he => precedes_of_mem_eraseP h hright he)
      (fun e he => hxsFiled e (List.mem_cons_of_mem x he))
      (fun e he => hysFiled e (List.mem_of_mem_eraseP he))
    rwa [List.reverse_cons, List.append_assoc]

/-- **A merge has the numbers of both sets.** -/
theorem hasNumber_mergeOnto : HasNumber (mergeOnto runsAt done xs ys) q ↔
    HasNumber done q ∨ HasNumber xs q ∨ HasNumber ys q := by
  fun_induction mergeOnto runsAt done xs ys with
  | case1 done ys => simp [List.reverseAux_eq]
  | case2 done x xs => simp [List.reverseAux_eq]
  | case3 done x xs y ys h ih =>
    rw [ih]
    simp only [hasNumber_cons]
    tauto
  | case4 done x xs y ys h ih =>
    rw [ih]
    simp only [hasNumber_cons]
    tauto
  | case5 done x xs y ys h ih =>
    rw [ih]
    calc HasNumber (x :: done) q ∨ HasNumber xs q ∨ HasNumber ((y :: ys).eraseP _) q
      _ ↔ HasNumber done q ∨ HasNumber xs q ∨
          (x.number? = some q ∨ HasNumber ((y :: ys).eraseP (x.isSame runsAt)) q) := by
        rw [hasNumber_cons]
        tauto
      _ ↔ HasNumber done q ∨ HasNumber xs q ∨ (x.number? = some q ∨ HasNumber (y :: ys) q) := by
        rw [hasNumber_cons_eraseP]
      _ ↔ HasNumber done q ∨ HasNumber (x :: xs) q ∨ HasNumber (y :: ys) q := by
        simp only [hasNumber_cons]
        tauto

theorem mem_of_mem_mergeOnto (h : e ∈ mergeOnto runsAt done xs ys) :
    e ∈ done ∨ e ∈ xs ∨ e ∈ ys := by
  fun_induction mergeOnto runsAt done xs ys with
  | case1 done ys => simpa [List.reverseAux_eq] using h
  | case2 done x xs => simpa [List.reverseAux_eq] using h
  | case3 done x xs y ys _ ih =>
    have := ih h
    simp only [List.mem_cons] at this ⊢
    tauto
  | case4 done x xs y ys _ ih =>
    have := ih h
    simp only [List.mem_cons] at this ⊢
    tauto
  | case5 done x xs y ys _ ih =>
    have := (ih h).imp_right fun h => h.imp_right List.mem_of_mem_eraseP
    simp only [List.mem_cons] at this ⊢
    tauto

theorem mem_of_mem_union (h : e ∈ union runsAt xs ys) : e ∈ xs ∨ e ∈ ys := by
  simpa using mem_of_mem_mergeOnto h

theorem hasNumber_union : HasNumber (union runsAt xs ys) q ↔ HasNumber xs q ∨ HasNumber ys q := by
  rw [union, hasNumber_mergeOnto]
  simp

theorem Ordered.union (hxs : Ordered xs) (hys : Ordered ys) : Ordered (union runsAt xs ys) where
  filed e he := (mem_of_mem_union he).elim (hxs.filed e) (hys.filed e)
  pairwise := pairwise_mergeOnto (by simpa using hxs.pairwise) (by simpa using hys.pairwise)
    hxs.filed hys.filed

/-! ### Sets of lists -/

/-- Elements that ascend one by one ascend altogether. -/
theorem pairwise_of_isAscending (hfiled : ∀ e ∈ es, e.IsFiled) (h : isAscending es = true) :
    es.Pairwise Precedes := by
  refine List.IsChain.pairwise ?_
  fun_induction isAscending es with
  | case1 e f es ih =>
    rw [Bool.and_eq_true, beq_iff_eq] at h
    have hef : e.Precedes f :=
      precedes_of_order_lt (hfiled e (by simp)) (hfiled f (by simp)) h.1
    exact .cons_cons hef (ih (fun g hg => hfiled g (List.mem_cons_of_mem e hg)) h.2)
  | case2 e => exact .singleton e
  | case3 => exact .nil

/-- **The set of the elements of a list is ordered.** The induction is on the halving of the
list. -/
theorem ordered_ofList (hfiled : ∀ e ∈ es, e.IsFiled) : Ordered (ofList runsAt es) := by
  fun_induction ofList runsAt es with
  | case1 es h => exact ⟨hfiled, pairwise_of_isAscending hfiled h⟩
  | case2 es h ihLeft ihRight =>
    have hleft := ihLeft fun e he => hfiled e (List.mem_of_mem_take he)
    exact hleft.union (ihRight fun e he => hfiled e (List.mem_of_mem_drop he))

theorem hasNumber_ofList : HasNumber (ofList runsAt es) q ↔ HasNumber es q := by
  fun_induction ofList runsAt es with
  | case1 es h => rfl
  | case2 es h ihLeft ihRight =>
    rw [hasNumber_union, ihLeft, ihRight, ← hasNumber_append, List.take_append_drop]

theorem mem_of_mem_ofList (h : e ∈ ofList runsAt es) : e ∈ es := by
  fun_induction ofList runsAt es with
  | case1 es _ => exact h
  | case2 es _ ihLeft ihRight =>
    rcases mem_of_mem_union h with h | h
    · exact List.mem_of_mem_take (ihLeft h)
    · exact List.mem_of_mem_drop (ihRight h)

/-! ### Searches -/

/-- A test that holds of all numbers up to some point and of nothing else turns once along the
elements. -/
private theorem pairwise_test {p : Element → Bool} {r : ℚ → Prop} (hes : Ordered es)
    (hr : ∀ {o q}, o < q → r q → r o)
    (hp : ∀ f ∈ es, p f = true ↔ ∃ o, f.number? = some o ∧ r o) :
    es.Pairwise fun a b => p b = true → p a = true := by
  refine hes.pairwise.imp_of_mem fun {a b} ha hb hab h => ?_
  obtain ⟨q, hq, hrq⟩ := (hp b hb).1 h
  obtain ⟨o, ho, hoq⟩ := hab q hq
  exact (hp a ha).2 ⟨o, ho, hr hoq hrq⟩

private theorem getElem_mem_extract {es : Array Element} {i lo hi : Nat} (h : i < es.size)
    (hlo : lo ≤ i) (hhi : i < hi) : es[i] ∈ es.extract lo hi := by
  refine Array.mem_extract_iff_getElem.2 ⟨i - lo, by omega, ?_⟩
  simp only [Nat.add_sub_cancel' hlo]

/-- **A number is found if and only if it is there.** Both tests of the search turn once along the
elements, and the number stands between the two positions. -/
theorem isAmong_iff (hes : Ordered es) (he : e.IsFiled) (hq : e.number? = some q) :
    isAmong runsAt es.toArray e = true ↔ HasNumber es q := by
  rw [isAmong, Array.any_eq_true']
  constructor
  · rintro ⟨f, hf, hsame⟩
    obtain ⟨k, hk, hfk⟩ := Array.mem_extract_iff_getElem.1 hf
    have hmem : f ∈ es.toArray := hfk ▸ Array.getElem_mem _
    refine ⟨f, List.mem_toArray.1 hmem, ?_⟩
    rw [← number?_eq_of_order_eq (order_eq_of_isSame hsame), hq]
  · rintro ⟨f, hf, hfq⟩
    have hef : e.order f = .eq := by
      rw [order_of_numbers he (hes.filed f hf) hq hfq, compare_eq_iff_eq.2 rfl]
    have hfe : f.order e = .eq := by
      rw [order_of_numbers (hes.filed f hf) he hfq hq, compare_eq_iff_eq.2 rfl]
    obtain ⟨i, hi, hif⟩ := Array.mem_iff_getElem.1 (List.mem_toArray.2 hf)
    have hturn : es.Pairwise fun a b => (b.order e == .lt) = true → (a.order e == .lt) = true :=
      pairwise_test hes (r := (· < q)) lt_trans fun f hf => by
        rw [beq_iff_eq, order_eq_lt_iff (hes.filed f hf) he hq]
    have hturn' : es.Pairwise fun a b => (b.order e != .gt) = true → (a.order e != .gt) = true :=
      pairwise_test hes (r := (· ≤ q)) (fun hoq hq => hoq.le.trans hq) fun f hf => by
        rw [bne_iff_ne, order_ne_gt_iff (hes.filed f hf) he hq]
    have hfirst := lt_bisect_iff hturn (Nat.le_refl _) (Nat.zero_le i) hi hi
    have hlast := lt_bisect_iff hturn' (Nat.le_refl _) (Nat.zero_le i) hi hi
    simp only [hif, hfe, beq_iff_eq, bne_iff_ne, reduceCtorEq, ne_eq, not_false_eq_true, iff_true,
      iff_false, Nat.not_lt] at hfirst hlast
    exact ⟨f, hif ▸ getElem_mem_extract hi hfirst hlast, isSame_of_order_eq runsAt hef hq⟩

/-! ### Operations between two sets -/

theorem Ordered.inter (hxs : Ordered xs) (hys : Ordered ys) : Ordered (inter runsAt xs ys) := by
  rw [Enumerated.inter]
  split_ifs
  · exact hys.filter _
  · exact hxs.filter _

theorem mem_of_mem_inter (h : e ∈ inter runsAt xs ys) : e ∈ xs ∨ e ∈ ys := by
  rw [inter] at h
  split_ifs at h
  · exact .inr (List.mem_filter.1 h).1
  · exact .inl (List.mem_filter.1 h).1

/-- The elements that are found among others, as numbers. -/
private theorem hasNumber_filter_isAmong (hxs : Ordered xs) (hys : Ordered ys) :
    HasNumber (xs.filter (isAmong runsAt ys.toArray)) q ↔ HasNumber xs q ∧ HasNumber ys q := by
  simp only [HasNumber, List.mem_filter]
  constructor
  · rintro ⟨e, ⟨he, hamong⟩, hq⟩
    exact ⟨⟨e, he, hq⟩, (isAmong_iff hys (hxs.filed e he) hq).1 hamong⟩
  · rintro ⟨⟨e, he, hq⟩, hys'⟩
    exact ⟨e, ⟨he, (isAmong_iff hys (hxs.filed e he) hq).2 hys'⟩, hq⟩

/-- **The numbers of both sets,** whichever of the two they are taken from. -/
theorem hasNumber_inter (hxs : Ordered xs) (hys : Ordered ys) :
    HasNumber (inter runsAt xs ys) q ↔ HasNumber xs q ∧ HasNumber ys q := by
  rw [inter]
  split_ifs
  · exact (hasNumber_filter_isAmong hys hxs).trans and_comm
  · exact hasNumber_filter_isAmong hxs hys

theorem Ordered.diff (hxs : Ordered xs) (ys : Enumerated) : Ordered (diff runsAt xs ys) :=
  hxs.filter _

theorem Ordered.apply (op : Operator) (hxs : Ordered xs) (hys : Ordered ys) :
    Ordered (apply runsAt op xs ys) := by
  cases op with
  | union => exact hxs.union hys
  | inter => exact hxs.inter hys
  | diff => exact hxs.diff ys

theorem mem_of_mem_diff (h : e ∈ diff runsAt xs ys) : e ∈ xs :=
  (List.mem_filter.1 h).1

/-- The numbers of a list that a set does not hold. -/
theorem hasNumber_diff (hxs : ∀ e ∈ xs, e.IsFiled) (hys : Ordered ys) :
    HasNumber (diff runsAt xs ys) q ↔ HasNumber xs q ∧ ¬ HasNumber ys q := by
  simp only [HasNumber, diff, List.mem_filter]
  constructor
  · rintro ⟨e, ⟨he, hamong⟩, hq⟩
    refine ⟨⟨e, he, hq⟩, fun hhas => ?_⟩
    rw [(isAmong_iff hys (hxs e he) hq).2 hhas] at hamong
    cases hamong
  · rintro ⟨⟨e, he, hq⟩, hnot⟩
    refine ⟨e, ⟨he, ?_⟩, hq⟩
    rw [Bool.not_eq_true', Bool.eq_false_iff]
    exact fun hamong => hnot ((isAmong_iff hys (hxs e he) hq).1 hamong)

end Enumerated

end SymbolSets
