import SymbolSets.Proofs.Session.Implementation

/-!
# Folds

A union or an intersection of any number of operands starts from a copy of the first one, which is a
set, and combines what it has with the next operand until there is none left. If the first operand
is kept by runs, the fold stores one new set in the end. What it comes to is the union or the
intersection of the integers that the operands list, so it does not matter in which order the
operands come and how often. If the first operand is a set of another implementation, the fold goes
by the methods of that implementation, and comes to the same integers if these do what they are for.

## Main definitions

* `Store.make`, `Store.chain`: a new set from values, and operators applied one by one.
* `Store.HasFolded`: what comes of a fold of a set that is kept by runs.
* `Implementation.HasFolded`: what comes of a fold of a set of another implementation.

## Main results

* `Store.exists_chain`: what a chain of operators leads to.
* `Store.exists_hasFolded`, `Implementation.exists_hasFolded`: folds of collections of integers.
* `Maker.exists_make_fold_enumerated`: stored sets that keep their elements one by one are folded as
  sets of another implementation.
* `Session.fold_operands`: folds of any operands.
-/

namespace SymbolSets

variable {σ τ : Store} {u v : Value} {vs : List Value} {n : Int}

theorem Store.Extends.contents?_eq (h : σ.Extends τ) (hu : σ.Knows u) :
    τ.contents? u = σ.contents? u := by
  cases u with
  | runs place => rw [contents?, contents?, h.spelledAt_eq hu]
  | enumerated place => rw [contents?, contents?, h.elementsAt_eq hu]
  | _ => rfl

/-- New objects do not change what a fold of known collections comes to. -/
theorem Fold.collects_of_extends {f : Fold} (h : σ.Extends τ) (hvs : ∀ v ∈ vs, σ.Knows v) :
    f.Collects τ.Has vs n ↔ f.Collects σ.Has vs n :=
  collects_congr_has fun v hv => h.has_iff (hvs v hv)

/-! ### Sets that are made -/

namespace Contents

variable {c : Contents}

theorem IsIntSet.canonical (h : c.IsIntSet) : c.Canonical := by
  cases c with
  | runs xs => exact h
  | enumerated es => trivial

end Contents

namespace Maker

variable {first : Value} {rest : List Value}

/-- A set kept by runs that is an operand holds the integers of the operand. -/
theorem exists_contents?_of_isOperand (hσ : σ.Canonical) (hkind : first.kind = .runs) :
    ∃ c, σ.contents? first = some c ∧ c.kind = .runs ∧ c.IsIntSet ∧
      ∀ n, c.Holds n ↔ σ.Has first n := by
  cases first with
  | runs place =>
    refine ⟨_, rfl, rfl, hσ.spelledAt place, fun n => ?_⟩
    rw [(σ.lists_runs place).has_iff, Runs.mem_elements, ← σ.runs_spelledAt]
    rfl
  | _ => cases hkind

/-- **What a fold makes of operands.** -/
theorem makes_fold (hσ : σ.Canonical) (f : Fold) (hkind : first.kind = .runs)
    (hrest : ∀ v ∈ rest, σ.IsOperand v) :
    (Contents.intSet σ).Makes (Contents.meaning σ) .runs (f.Collects σ.Has (first :: rest))
      (make σ (.fold f) (first :: rest)) := by
  obtain ⟨c, hc, hcKind, hcSet, hcHolds⟩ := exists_contents?_of_isOperand hσ hkind
  obtain ⟨d, hd, hdKind, hdSet, hdHolds⟩ := (Contents.lawful hσ).makes_fold f hcSet hrest
  refine ⟨d, ?_, hdKind.trans hcKind, hdSet, fun n => ?_⟩
  · rw [make, fold?, hc]
    exact hd
  · rw [Fold.collects_cons]
    exact (hdHolds n).trans (Operator.selects_congr (hcHolds n) Iff.rfl)

/-- The union of any number of collections is what their fold comes to, kept by runs. -/
theorem makes_unionAll (hσ : σ.Canonical) (hvs : ∀ v ∈ vs, σ.IsOperand v) :
    (Contents.intSet σ).Makes (Contents.meaning σ) .runs (Fold.union.Collects σ.Has vs)
      (make σ .unionAll vs) := by
  have hempty : (Contents.meaning σ).IsSet (.runs .empty) := Runs.canonical_nil
  obtain ⟨d, hd, hkind, hset, hholds⟩ :=
    (Contents.lawful hσ).makes_foldlM (f := .union) (fun _ _ _ => rfl) hempty hvs
  refine ⟨d, hd, hkind, hset, fun n => (hholds n).trans ?_⟩
  exact or_iff_right (by simp [Contents.meaning, Contents.Holds, Runs.Holds])

end Maker

/-! ### New sets and chains of operators -/

namespace Store

/-- Makes a new set of values and stores it. -/
def make (σ : Store) (m : Maker) (vs : List Value) : Store × Report :=
  σ.produce ((m.make σ vs).map .contents)

/-- Sends an operator to a set with the first value as its operand, the same operator to the answer
with the second one, and so on. -/
def chain (op : Operator) : Store → Value → List Value → Except Fault (Value × Store)
  | σ, v, [] => .ok (v, σ)
  | σ, v, w :: ws => do
    let (σ, report) := Request.perform (.derive (.operator op)) σ v [w]
    chain op σ (← report.result) ws

variable {c d : Contents} {first w : Value} {rest : List Value}

theorem make_of_ok {m : Maker} (h : m.make σ vs = .ok d) :
    σ.make m vs = ((σ.enter (.contents d)).2, ⟨.ok (σ.enter (.contents d)).1, []⟩) := by
  rw [make, h]
  rfl

/-- A set that is stored holds what it was made of. -/
theorem contents?_enter (σ : Store) (d : Contents) :
    (σ.enter (.contents d)).2.contents? (σ.enter (.contents d)).1 = some d := by
  cases d with
  | runs xs => simp [enter, addRuns, contents?, spelledAt]
  | enumerated es => simp [enter, addElements, contents?, elementsAt]

theorem not_knows_enter (σ : Store) (d : Contents) : ¬ σ.Knows (σ.enter (.contents d)).1 := by
  cases d with
  | runs xs => exact Nat.lt_irrefl σ.runs.size
  | enumerated es => exact Nat.lt_irrefl σ.elements.size

theorem knows_enter (σ : Store) (d : Contents) :
    (σ.enter (.contents d)).2.Knows (σ.enter (.contents d)).1 := by
  cases d with
  | runs xs => exact σ.knows_addRuns xs
  | enumerated es => exact σ.knows_addElements es

/-- **What a chain of operators leads to.** The induction is on the operands; each operator stores a
set, and the next one is sent to it in the store that is left. -/
theorem exists_chain {f : Fold} (hσ : σ.Canonical) (hu : σ.contents? u = some c) (hc : c.IsIntSet)
    (hvs : ∀ v ∈ vs, σ.IsOperand v) (hknown : ∀ v ∈ vs, σ.Knows v) :
    ∃ w τ d, σ.chain f.operator u vs = .ok (w, τ) ∧ σ.Extends τ ∧ τ.contents? w = some d ∧
      d.kind = c.kind ∧ d.IsIntSet ∧
      ∀ n, d.Holds n ↔ f.operator.Selects (c.Holds n) (f.Collects σ.Has vs n) := by
  induction vs generalizing σ u c with
  | nil => exact ⟨u, σ, c, rfl, .refl σ, hu, rfl, hc, fun n => Fold.selects_collects_nil.symm⟩
  | cons v vs ih =>
    obtain ⟨b, hb, hbKind, hbSet, hbHolds⟩ :=
      (Contents.lawful hσ).makes_operate f hc (hvs v List.mem_cons_self)
    have hext : σ.Extends (σ.enter (.contents b)).2 := σ.extends_enter _
    have hcanonical : (Product.contents b).Canonical := Contents.IsIntSet.canonical hbSet
    have hrest (w : Value) (hw : w ∈ vs) : σ.Knows w := hknown w (List.mem_cons_of_mem v hw)
    obtain ⟨w, τ, d, hchain, hτ, hw, hdKind, hdSet, hdHolds⟩ := ih
      (hσ.enter hcanonical) (σ.contents?_enter b) hbSet
      (fun w hw => hext.isOperand (hrest w hw) (hvs w (List.mem_cons_of_mem v hw)))
      (fun w hw => hext.knows (hrest w hw))
    have hperform : Request.perform (.derive (.operator f.operator)) σ u [v] =
        ((σ.enter (.contents b)).2, ⟨.ok (σ.enter (.contents b)).1, []⟩) := by
      simp only [Request.perform, Derivation.derive, hu, Derivation.ofContents, Contents.operate,
        hb]
      rfl
    refine ⟨w, τ, d, ?_, hext.trans hτ, hw, hdKind.trans hbKind, hdSet, fun n => ?_⟩
    · rw [chain, hperform]
      exact hchain
    · refine (hdHolds n).trans ((Operator.selects_congr (hbHolds n)
        (Fold.collects_of_extends hext hrest)).trans ?_)
      rw [Fold.selects_assoc, Fold.collects_cons]
      rfl

/-- **A chain that starts with the first operand of a fold** leads to a set of what the fold comes
to. -/
theorem exists_chain_fold (hσ : σ.Canonical) (f : Fold) (hkind : first.kind = .runs)
    (hrest : ∀ v ∈ rest, σ.IsOperand v) (hknown : ∀ v ∈ rest, σ.Knows v) :
    ∃ w τ d, σ.chain f.operator first rest = .ok (w, τ) ∧ σ.Extends τ ∧ τ.contents? w = some d ∧
      d.kind = .runs ∧ d.IsIntSet ∧ ∀ n, d.Holds n ↔ f.Collects σ.Has (first :: rest) n := by
  obtain ⟨c, hc, hcKind, hcSet, hcHolds⟩ := Maker.exists_contents?_of_isOperand hσ hkind
  obtain ⟨w, τ, d, hchain, hext, hw, hdKind, hdSet, hdHolds⟩ :=
    exists_chain hσ hc hcSet hrest hknown
  refine ⟨w, τ, d, hchain, hext, hw, hdKind.trans hcKind, hdSet, fun n => ?_⟩
  rw [hdHolds, Fold.collects_cons, Operator.selects_congr (hcHolds n) Iff.rfl]

/-- Two sets of integers that are kept by runs and hold the same are equal. -/
theorem answer_equal_of_holds (hu : σ.contents? u = some c) (hw : σ.contents? w = some d)
    (hc : c.IsIntSet) (hd : d.IsIntSet) (hcKind : c.kind = .runs) (hdKind : d.kind = .runs)
    (h : ∀ n, c.Holds n ↔ d.Holds n) :
    Query.answer σ .equal u [w] = .ok (.value (.bool true)) := by
  cases u with
  | runs i =>
    cases w with
    | runs j =>
      cases hu
      cases hw
      rw [Query.answer_equal_iff, ← σ.runs_spelledAt, ← σ.runs_spelledAt]
      exact Runs.Canonical.ext hc hd h
    | enumerated place =>
      cases hw
      cases hdKind
    | _ => cases hw
  | enumerated place =>
    cases hu
    cases hcKind
  | _ => cases hu

/-- A set that is made in the store of an equal one is equal to it when it is stored. -/
theorem exists_make_equal {m : Maker} (hu : σ.contents? u = some c) (hknows : σ.Knows u)
    (hm : m.make σ vs = .ok d) (hc : c.IsIntSet) (hd : d.IsIntSet) (hcKind : c.kind = .runs)
    (hdKind : d.kind = .runs) (h : ∀ n, c.Holds n ↔ d.Holds n) :
    ∃ w τ, σ.make m vs = (τ, ⟨.ok w, []⟩) ∧
      Query.answer τ .equal u [w] = .ok (.value (.bool true)) := by
  refine ⟨_, _, make_of_ok hm, ?_⟩
  have hu' : (σ.enter (.contents d)).2.contents? u = some c := by
    rw [(σ.extends_enter _).contents?_eq hknows, hu]
  exact answer_equal_of_holds hu' (σ.contents?_enter d) hc hd hcKind hdKind h

/-! ### Folds of stored sets -/

/-- What comes of a fold of values that are stored in `σ`, of which the first is kept by runs: the
set `u` in the store `τ`. -/
structure HasFolded (f : Fold) (σ : Store) (first : Value) (rest : List Value) (u : Value)
    (τ : Store) : Prop where
  /-- No operand is changed, nor anything else that was stored. -/
  extension : σ.Extends τ
  new : ¬ σ.Knows u
  kind : u.kind = .runs
  /-- The set has exactly the integers of the operands, and lists them in ascending order. -/
  lists : ∃ ns, τ.Lists u ns ∧ ns.Pairwise (· < ·) ∧
    ∀ n, n ∈ ns ↔ f.Collects σ.Has (first :: rest) n
  /-- A chain of operators leads to an equal set. -/
  chain : ∃ w υ, τ.chain f.operator first rest = .ok (w, υ) ∧ w.kind = .runs ∧
    Query.answer υ .equal u [w] = .ok (.value (.bool true))
  /-- A fold of the same operands in any other order, and repeated at will, leads to an equal set,
  if it is to be kept by runs too. -/
  rearranged : ∀ {first' rest'}, first'.kind = .runs →
    (∀ v, v ∈ first' :: rest' ↔ v ∈ first :: rest) →
    ∃ w υ, τ.make (.fold f) (first' :: rest') = (υ, ⟨.ok w, []⟩) ∧
      Query.answer υ .equal u [w] = .ok (.value (.bool true))
  /-- So does the union of collections. -/
  unionAll : f = .union →
    ∃ w υ, τ.make .unionAll (first :: rest) = (υ, ⟨.ok w, []⟩) ∧
      Query.answer υ .equal u [w] = .ok (.value (.bool true))

/-- **Folds of collections of integers.** -/
theorem exists_hasFolded (hσ : σ.Canonical) (f : Fold) (hkind : first.kind = .runs)
    (hvs : ∀ v ∈ first :: rest, σ.IsOperand v) (hknown : ∀ v ∈ first :: rest, σ.Knows v) :
    ∃ u τ, σ.make (.fold f) (first :: rest) = (τ, ⟨.ok u, []⟩) ∧ HasFolded f σ first rest u τ := by
  obtain ⟨d, hd, hdKind, hdSet, hdHolds⟩ :=
    Maker.makes_fold hσ f hkind fun v hv => hvs v (List.mem_cons_of_mem first hv)
  refine ⟨_, _, make_of_ok hd, ?_⟩
  -- From here on the new set is looked at in the store in which it is kept.
  have hcanonical : (Product.contents d).Canonical := Contents.IsIntSet.canonical hdSet
  have hext := σ.extends_enter (.contents d)
  have hu := σ.contents?_enter d
  have hknows := σ.knows_enter d
  have hnew := σ.not_knows_enter d
  have hτ := hσ.enter hcanonical
  generalize (σ.enter (.contents d)).1 = u at hu hknows hnew ⊢
  generalize (σ.enter (.contents d)).2 = τ at hext hu hknows hτ ⊢
  have hτvs (v : Value) (hv : v ∈ first :: rest) : τ.IsOperand v :=
    hext.isOperand (hknown v hv) (hvs v hv)
  have hcollects (n : Int) : d.Holds n ↔ f.Collects τ.Has (first :: rest) n :=
    (hdHolds n).trans (Fold.collects_of_extends hext hknown).symm
  refine ⟨hext, hnew, (kind_of_contents? hu).symm.trans hdKind, ?_, ?_, ?_, ?_⟩
  · refine ⟨d.ints, lists_of_contents? hu hdSet, Contents.IsIntSet.pairwise_ints hdSet,
      fun n => ?_⟩
    exact (Contents.IsIntSet.mem_ints_iff hdSet).trans (hdHolds n)
  · obtain ⟨w, υ, e, hchain, hυ, hw, heKind, heSet, heHolds⟩ := exists_chain_fold hτ f hkind
      (fun v hv => hτvs v (List.mem_cons_of_mem first hv))
      fun v hv => hext.knows (hknown v (List.mem_cons_of_mem first hv))
    have hu' : υ.contents? u = some d := by rw [hυ.contents?_eq hknows, hu]
    refine ⟨w, υ, hchain, (kind_of_contents? hw).symm.trans heKind, ?_⟩
    exact answer_equal_of_holds hu' hw hdSet heSet hdKind heKind fun n =>
      (hcollects n).trans (heHolds n).symm
  · intro first' rest' hkind' hsame
    obtain ⟨e, he, heKind, heSet, heHolds⟩ := Maker.makes_fold hτ f hkind' fun v hv =>
      hτvs v ((hsame v).1 (List.mem_cons_of_mem first' hv))
    refine exists_make_equal hu hknows he hdSet heSet hdKind heKind fun n => ?_
    rw [hcollects, ← Fold.collects_congr hsame]
    exact (heHolds n).symm
  · rintro rfl
    obtain ⟨e, he, heKind, heSet, heHolds⟩ := Maker.makes_unionAll hτ hτvs
    exact exists_make_equal hu hknows he hdSet heSet hdKind heKind fun n =>
      (hcollects n).trans (heHolds n).symm

/-- **A fold stops at an operand that the operator refuses,** if what comes before it is all
right. -/
theorem make_fold_of_refused (hσ : σ.Canonical) (f : Fold) (hkind : first.kind = .runs)
    {before after : List Value} {bad : Value} {shown : Text}
    (hbefore : ∀ v ∈ before, σ.IsOperand v) (hbad : bad.refusalText? = some shown) :
    σ.make (.fold f) (first :: (before ++ bad :: after)) =
      (σ, ⟨.error (.operandRefused f.operator .runs bad.kind shown), []⟩) := by
  obtain ⟨c, hc, hcKind, hcSet, -⟩ := Maker.exists_contents?_of_isOperand hσ hkind
  have hfold : Maker.make σ (.fold f) (first :: (before ++ bad :: after)) =
      .error (.operandRefused f.operator .runs bad.kind shown) := by
    rw [Maker.make, Maker.fold?, hc, ← hcKind]
    exact (Contents.lawful hσ).fold_of_refused hcSet hbefore (Value.refusal?_eq_some hbad)
  rw [make, hfold]
  rfl

end Store

/-! ### Folds of sets of other implementations -/

namespace Implementation

variable {α : Type} {I : Implementation α} {IsSet : α → Prop} {first : α} {rest : List (Item α)}

/-- What comes of a fold of a set of another implementation: the set `a`. -/
structure HasFolded (I : Implementation α) (f : Fold) (σ : Store) (first : α)
    (rest : List (Item α)) (a : α) : Prop where
  kind : I.kind a = I.kind first
  /-- The set has exactly the integers of the operands, and lists them in ascending order. -/
  ascending : (I.toList a).Pairwise (· < ·)
  mem_toList : ∀ n, n ∈ I.toList a ↔ f.Collects (I.Has σ) (.own first :: rest) n
  /-- A chain of operators leads to a set of the same kind that lists the same. -/
  chain : ∃ b, rest.foldlM ((I.intSet σ).operate f.operator) first = .ok b ∧ I.kind b = I.kind a ∧
    I.toList b = I.toList a

/-- **Folds of sets of another implementation.** -/
theorem exists_hasFolded (hI : I.Lawful σ IsSet) (f : Fold) (hfirst : IsSet first)
    (hrest : ∀ x ∈ rest, IsOperand σ IsSet x) :
    ∃ a, (I.intSet σ).fold f first rest = .ok a ∧ I.HasFolded f σ first rest a := by
  obtain ⟨a, ha, haKind, haSet, haHolds⟩ := hI.intSet.makes_fold f hfirst hrest
  obtain ⟨b, hb, hbKind, hbSet, hbHolds⟩ := hI.intSet.makes_chain f hfirst hrest
  refine ⟨a, ha, haKind, hI.ascending haSet, fun n => ?_, b, hb, hbKind.trans haKind.symm, ?_⟩
  · rw [Fold.collects_cons]
    exact haHolds n
  · exact (hI.ascending hbSet).eq_of_mem_iff (hI.ascending haSet) fun n =>
      (hbHolds n).trans (haHolds n).symm

end Implementation

/-! ### Folds of sets that keep their elements one by one -/

namespace Contents

variable {es : Enumerated} {rest : List Value} {f : Fold}

theorem combine_enumerated (op : Operator) (es : Enumerated) (v : Value) :
    (intSet σ).combine op (.enumerated es) v =
      ((Enumerated.implementation.intSet σ).combine op es (.value v)).map .enumerated := by
  cases op with
  | _ => rfl

/-- An operator that is sent to a set kept one by one goes by the methods of that implementation. -/
theorem operate_enumerated (op : Operator) (es : Enumerated) (v : Value) :
    (intSet σ).operate op (.enumerated es) v =
      ((Enumerated.implementation.intSet σ).operate op es (.value v)).map .enumerated := by
  have hrefusal : (Enumerated.implementation.intSet σ).refusal? (.value v) =
      (intSet σ).refusal? v := rfl
  rw [IntSet.operate, IntSet.operate, combine_enumerated, hrefusal]
  cases (intSet σ).refusal? v with
  | none => rfl
  | some refusal => rfl

theorem foldlM_operate_enumerated :
    rest.foldlM ((intSet σ).operate f.operator) (.enumerated es) =
      ((rest.map .value).foldlM ((Enumerated.implementation.intSet σ).operate f.operator) es).map
        .enumerated := by
  induction rest generalizing es with
  | nil => rfl
  | cons v rest ih =>
    rw [List.foldlM_cons, List.map_cons, List.foldlM_cons, operate_enumerated]
    cases (Enumerated.implementation.intSet σ).operate f.operator es (.value v) with
    | error e => rfl
    | ok fs => exact ih

/-- So does a fold that starts from such a set. -/
theorem fold_enumerated : (intSet σ).fold f (.enumerated es) rest =
    ((Enumerated.implementation.intSet σ).fold f es (rest.map .value)).map .enumerated := by
  have hnoItems : (Enumerated.implementation.intSet σ).noItems = .value (intSet σ).noItems := rfl
  rw [IntSet.fold, combine_enumerated, IntSet.fold, hnoItems]
  cases (Enumerated.implementation.intSet σ).combine .union es (.value (intSet σ).noItems) with
  | error e => rfl
  | ok fs => exact foldlM_operate_enumerated

end Contents

/-- **Folds of stored sets that keep their elements one by one** are folds of that implementation,
and every such set that lists integers is one that folds can use. -/
theorem Maker.exists_make_fold_enumerated {place : Nat} {rest : List Value}
    (hcanonical : σ.Canonical) (hordered : σ.Ordered) (f : Fold)
    (hfirst : σ.IsOperand (.enumerated place)) (hrest : ∀ v ∈ rest, σ.IsOperand v) :
    ∃ fs, make σ (.fold f) (.enumerated place :: rest) = .ok (.enumerated fs) ∧
      Enumerated.implementation.HasFolded f σ (σ.elementsAt place) (rest.map .value) fs := by
  obtain ⟨⟨ns, hns⟩, -⟩ := hfirst
  obtain ⟨hset, -⟩ := hns.isIntSet hcanonical hordered rfl
  have hitems : ∀ x ∈ rest.map .value, Implementation.IsOperand σ Enumerated.IsIntSet x := by
    intro x hx
    obtain ⟨v, hv, rfl⟩ := List.mem_map.1 hx
    exact hrest v hv
  obtain ⟨fs, hfs, hfolded⟩ :=
    Implementation.exists_hasFolded (Enumerated.lawful σ) f hset hitems
  refine ⟨fs, ?_, hfolded⟩
  change (Contents.intSet σ).fold f (.enumerated (σ.elementsAt place)) rest = _
  rw [Contents.fold_enumerated, hfs]
  rfl

/-! ### Steps -/

/-- A fold of operands. -/
def Step.fold (f : Fold) (os : List Operand) (into : Option String) : Step :=
  ⟨.make (.fold f), os, into⟩

/-- A step that makes a set reads its operands, makes the set, and binds it. -/
theorem Step.run_fold {f : Fold} {os : List Operand} (hos : Operand.values? os σ = .ok (vs, τ))
    (into : Option String) :
    (Step.fold f os into).run σ =
      ((τ.make (.fold f) vs).1.bindResult into (τ.make (.fold f) vs).2.result,
        (τ.make (.fold f) vs).2) := by
  simp only [Step.run, Step.perform, Step.fold, hos, Step.act, Store.make]

/-- **Folds of any operands.** A fold of no operands is refused.

If the first operand is a set kept by runs, and all are collections of integers, the fold stores a
new set of the integers that are in one of them or in all of them; a chain of operators leads to an
equal set, and so does a fold of the same operands in another order. If the operands up to one that
is no collection, or a text or bytes, are of that sort, the fold is refused for it. In no case is an
operand changed.

If the first operand is a set of another implementation, of which no more is known than that its
methods do what they are for, the fold makes a set of the same kind, of the same integers, as a
chain of operators does, or is refused likewise. -/
theorem Session.fold_operands (hσ : σ.Reachable) (f : Fold) (into : Option String) :
    (Step.fold f [] into).run σ = (σ, ⟨.error (.noOperands f), []⟩) ∧
    (∀ {os first rest τ}, Operand.values? os σ = .ok (first :: rest, τ) → first.kind = .runs →
      σ.Extends τ ∧
      ((∀ v ∈ first :: rest, τ.IsOperand v) →
        ∃ u υ, (Step.fold f os into).run σ = (υ.bindResult into (.ok u), ⟨.ok u, []⟩) ∧
          Store.HasFolded f τ first rest u υ) ∧
      ∀ {before bad after}, rest = before ++ bad :: after → (∀ v ∈ before, τ.IsOperand v) →
        bad.kind = .text ∨ bad.kind = .bytes ∨ τ.items? bad = .error .notIterable →
        ∃ shown, bad.refusalText? = some shown ∧ (Step.fold f os into).run σ =
          (τ, ⟨.error (.operandRefused f.operator .runs bad.kind shown), []⟩)) ∧
    ∀ {α : Type} {I : Implementation α} {τ : Store} {IsSet : α → Prop}, I.Lawful τ IsSet →
      ∀ {first : α}, IsSet first →
        (∀ {rest}, (∀ x ∈ rest, Implementation.IsOperand τ IsSet x) →
          ∃ a, (I.intSet τ).fold f first rest = .ok a ∧ I.HasFolded f τ first rest a) ∧
        ∀ {before after : List (Implementation.Item α)} {bad : Value},
          (∀ x ∈ before, Implementation.IsOperand τ IsSet x) →
          bad.kind = .text ∨ bad.kind = .bytes ∨ τ.items? bad = .error .notIterable →
          ∃ shown, bad.refusalText? = some shown ∧
            (I.intSet τ).fold f first (before ++ .value bad :: after) =
              .error (.operandRefused f.operator (I.kind first) bad.kind shown) := by
  refine ⟨rfl, fun {os first rest τ} hos hkind => ?_, fun {α I τ IsSet} hI {first} hfirst => ?_⟩
  · have hcanonical : τ.Canonical :=
      Operand.values?_keeps Store.keptByReading_canonical os hσ.canonical hos
    have hknown : ∀ v ∈ first :: rest, τ.Knows v := Operand.knows_of_values? hσ.closed hos
    have hrun := Step.run_fold (f := f) hos into
    refine ⟨Operand.extends_of_values? hos, fun hvs => ?_, ?_⟩
    · obtain ⟨u, υ, hmake, hfolded⟩ := Store.exists_hasFolded hcanonical f hkind hvs hknown
      exact ⟨u, υ, by rw [hrun, hmake], hfolded⟩
    · rintro before bad after rfl hbefore hbad
      obtain ⟨shown, hshown⟩ := Store.exists_refusalText? hbad
      refine ⟨shown, hshown, ?_⟩
      rw [hrun, Store.make_fold_of_refused hcanonical f hkind hbefore hshown]
      rfl
  · refine ⟨fun hrest => Implementation.exists_hasFolded hI f hfirst hrest, ?_⟩
    intro before after bad hbefore hbad
    obtain ⟨shown, hshown⟩ := Store.exists_refusalText? hbad
    exact ⟨shown, hshown,
      hI.intSet.fold_of_refused hfirst hbefore (Value.refusal?_eq_some hshown)⟩

/-- A union of three kinds of collections, an intersection that a text is among, and both of a set
that keeps its elements one by one. -/
theorem Session.fold_operands_mixed :
    let σ := Session.run .initial [⟨.make .range, [.int 1, .int 3], some "a"⟩]
    let good : List Operand :=
      [.register "a", .enumerated (.list [.int 7, .int 2]), .list [.int 9, .bool true]]
    let bad : List Operand := [.register "a", .list [.int 4], .text [], .nothing]
    let es : Enumerated := Enumerated.ofList σ.runsAt ([.int 7, .int 2].map σ.element)
    let items : List (Implementation.Item Enumerated) :=
      [.own es, .value (.runs Store.characterPlace)]
    (∃ u τ υ, Operand.values? good σ = .ok ([.runs 2, .enumerated 0, .list 1], τ) ∧
      (Step.fold .union good none).run σ = (υ, ⟨.ok u, []⟩) ∧
      Store.HasFolded .union τ (.runs 2) [.enumerated 0, .list 1] u υ) ∧
    (∃ τ shown, (Step.fold .inter bad none).run σ =
      (τ, ⟨.error (.operandRefused .inter .runs .text shown), []⟩)) ∧
    (∃ fs, (Enumerated.implementation.intSet σ).fold .union es items = .ok fs ∧
      Enumerated.implementation.HasFolded .union σ es items fs) ∧
    ∃ shown, (Enumerated.implementation.intSet σ).fold .union es
        ([.own es] ++ .value (.text []) :: items) =
      .error (.operandRefused .union .enumerated .text shown) := by
  intro σ good bad es items
  let τ : Store := ((Operand.values? good σ).toOption.map Prod.snd).getD σ
  let φ : Store := ((Operand.values? bad σ).toOption.map Prod.snd).getD σ
  have hruns : τ.items? (.runs 2) = .ok [.int 1, .int 2, .int 3] := by decide +kernel +revert
  have helements : τ.items? (.enumerated 0) = .ok [.int 2, .int 7] := by decide +kernel +revert
  have hlist : τ.items? (.list 1) = .ok [.int 9, .bool true] := by decide +kernel +revert
  have hlist' : φ.items? (.list 0) = .ok [.int 4] := by decide +kernel +revert
  have hgood : Operand.values? good σ = .ok ([.runs 2, .enumerated 0, .list 1], τ) := rfl
  have hbad : Operand.values? bad σ = .ok ([.runs 2, .list 0, .text [], .nothing], φ) := rfl
  have hσ : σ.Reachable := ⟨_, rfl⟩
  obtain ⟨-, hfold, -⟩ := (fold_operands hσ .union none).2.1 hgood rfl
  obtain ⟨-, -, hrefused⟩ := (fold_operands hσ .inter none).2.1 hbad rfl
  have hes : es.IsIntSet := Enumerated.isIntSet_ofList (by decide)
  obtain ⟨hfolds, hstops⟩ := (fold_operands hσ .union none).2.2 (Enumerated.lawful σ) hes
  refine ⟨?_, ?_, hfolds ?_, ?_⟩
  · have hall : ∀ v ∈ [.runs 2, .enumerated 0, .list 1], τ.IsOperand v := by
      simp only [List.forall_mem_cons]
      exact ⟨Store.isOperand_of_items? hruns (by decide) (by decide),
        Store.isOperand_of_items? helements (by decide) (by decide),
        Store.isOperand_of_items? hlist (by decide) (by decide), by simp⟩
    obtain ⟨u, υ, hrun, hfolded⟩ := hfold hall
    exact ⟨u, τ, υ, hgood, hrun, hfolded⟩
  · have hbefore : ∀ v ∈ [.list 0], φ.IsOperand v := by
      rw [List.forall_mem_singleton]
      exact Store.isOperand_of_items? hlist' (by decide) (by decide)
    obtain ⟨shown, -, hrun⟩ := @hrefused [.list 0] (.text []) [.nothing] rfl hbefore (.inl rfl)
    exact ⟨φ, shown, hrun⟩
  · simp only [items, List.forall_mem_cons]
    exact ⟨hes, ⟨⟨_, σ.lists_runs _⟩, by decide⟩, by simp⟩
  · obtain ⟨shown, -, hstop⟩ := @hstops [.own es] items (.text [])
      (List.forall_mem_singleton.2 hes) (.inl rfl)
    exact ⟨shown, hstop⟩

end SymbolSets
