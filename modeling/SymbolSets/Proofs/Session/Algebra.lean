import Mathlib.Tactic.Tauto
import SymbolSets.Proofs.Runs.Size
import SymbolSets.Proofs.Session.Equality
import SymbolSets.Proofs.Session.Reference
import SymbolSets.Proofs.Store.Collection

/-!
# The algebra of sets

Union adds run by run, intersection and difference walk over two lists of runs in ways of their own,
and the size is a sum of lengths. They agree as the operations of an algebra of sets: a combination
of stored sets by operators is evaluated step by step to a new set, which holds what the combination
says. So two combinations that say the same are equal as sets, with the same runs.

## Main definitions

* `Combination`: stored sets combined by operators.
* `Combination.eval`: the set that a combination leads to.
* `Combination.Holds`: the integers that a combination stands for.
* `Combination.AreEqual`, `Combination.IsEmpty`, `Combination.HasSize`: what combinations lead to,
  by the answers to questions.

## Main results

* `Combination.exists_yields`: every combination of stored sets leads to a set of what it stands
  for.
* `Combination.areEqual_iff`: combinations are equal if and only if they stand for the same.
* `Combination.algebra_laws`: the laws of the algebra.
-/

namespace SymbolSets

/-! ### One operator -/

namespace Operator

/-- What the operator does to two sets kept by runs. -/
def apply : Operator → SpelledRuns → SpelledRuns → SpelledRuns
  | .union => fun xs ys => xs.insertAll ys.spans
  | .inter => SpelledRuns.inter
  | .diff => SpelledRuns.diff

/-- Whether something is in the result, given whether it is in the two sets. -/
def Selects : Operator → Prop → Prop → Prop
  | .union, p, q => p ∨ q
  | .inter, p, q => p ∧ q
  | .diff, p, q => p ∧ ¬ q

variable {xs ys : SpelledRuns}

theorem canonical_apply (op : Operator) (hxs : xs.runs.Canonical) (hys : ys.runs.Canonical) :
    (op.apply xs ys).runs.Canonical := by
  cases op with
  | union => exact SpelledRuns.canonical_insertAll hxs ys.spans
  | inter => exact SpelledRuns.canonical_inter xs ys
  | diff => exact SpelledRuns.canonical_diff hxs hys

theorem holds_apply (op : Operator) (hxs : xs.runs.Canonical) (hys : ys.runs.Canonical) {v : Int} :
    (op.apply xs ys).runs.Holds v ↔ op.Selects (xs.runs.Holds v) (ys.runs.Holds v) := by
  cases op with
  | union => exact SpelledRuns.holds_insertAll hxs
  | inter => exact SpelledRuns.holds_inter hxs hys
  | diff => exact SpelledRuns.holds_diff hxs hys

theorem selects_congr {op : Operator} {p p' q q' : Prop} (hp : p ↔ p') (hq : q ↔ q') :
    op.Selects p q ↔ op.Selects p' q' := by
  rw [hp, hq]

end Operator

/-- An operator between two sets kept by runs stores a new set. -/
theorem Request.perform_operator (op : Operator) (σ : Store) (i j : Nat) :
    Request.perform (.derive (.operator op)) σ (.runs i) [.runs j] =
      ((σ.addRuns (op.apply (σ.spelledAt i) (σ.spelledAt j))).2,
        ⟨.ok (.runs σ.runs.size), []⟩) := by
  cases op with
  | union =>
    have hadded : σ.intervals? (.runs j) = .ok (σ.spelledAt j).spans :=
      Additions.intervals?_items_ok (σ.spelledAt j).spans
    have htaken : (Value.runs j).refusalText? = none := rfl
    simp only [perform, Derivation.derive, Store.contents?, Derivation.ofContents,
      Contents.operate_of_taken σ htaken, Contents.combine, hadded]
    rfl
  | inter => rfl
  | diff => rfl

namespace Query

variable {σ : Store} {place : Nat}

theorem answer_size (h : place < σ.runs.size) :
    Query.answer σ .size (.runs place) [] = .ok (.value (.int (σ.runsAt place).size)) := by
  have ho := Array.getElem?_eq_getElem h
  rw [Store.runsAt_eq_of_getElem? ho]
  simp only [answer, answerObject, ho, answerRuns]

theorem answer_isEmpty (h : place < σ.runs.size) :
    Query.answer σ .isEmpty (.runs place) [] = .ok (.value (.bool (σ.runsAt place).isEmpty)) := by
  have ho := Array.getElem?_eq_getElem h
  rw [Store.runsAt_eq_of_getElem? ho]
  simp only [answer, answerObject, ho, answerRuns]

end Query

/-! ### Combinations -/

/-- Stored sets combined by operators. -/
inductive Combination
  | set (place : Nat)
  | combine (op : Operator) (left right : Combination)

namespace Combination

instance : Union Combination :=
  ⟨combine .union⟩

instance : Inter Combination :=
  ⟨combine .inter⟩

instance : SDiff Combination :=
  ⟨combine .diff⟩

/-- The set that a combination leads to, and the store after it. The left part is evaluated first,
and each operator is a request to the set on its left. -/
def eval : Combination → Store → Except Fault (Value × Store)
  | .set place, σ => .ok (.runs place, σ)
  | .combine op left right, σ => do
    let (v, σ) ← left.eval σ
    let (w, σ) ← right.eval σ
    let (σ, report) := Request.perform (.derive (.operator op)) σ v [w]
    return (← report.result, σ)

/-- The integers that a combination stands for. -/
def Holds (σ : Store) : Combination → Int → Prop
  | .set place, v => (σ.runsAt place).Holds v
  | .combine op left right, v => op.Selects (left.Holds σ v) (right.Holds σ v)

/-- All sets that are combined are stored. -/
def Known (σ : Store) : Combination → Prop
  | .set place => place < σ.runs.size
  | .combine _ left right => left.Known σ ∧ right.Known σ

/-- The answer to the question whether what one combination leads to equals what another one leads
to. -/
def askEqual (e f : Combination) (σ : Store) : Except Fault Product := do
  let (v, σ) ← e.eval σ
  let (w, σ) ← f.eval σ
  Query.answer σ .equal v [w]

/-- The answer to a question about the set that a combination leads to. -/
def ask (q : Query) (e : Combination) (σ : Store) : Except Fault Product := do
  let (v, σ) ← e.eval σ
  Query.answer σ q v []

/-- Both combinations can be evaluated, and they lead to equal sets. -/
def AreEqual (σ : Store) (e f : Combination) : Prop :=
  e.askEqual f σ = .ok (.value (.bool true))

/-- The combination can be evaluated, and it leads to an empty set. -/
def IsEmpty (σ : Store) (e : Combination) : Prop :=
  e.ask .isEmpty σ = .ok (.value (.bool true))

/-- The combination can be evaluated, and it leads to a set of `n` integers. -/
def HasSize (σ : Store) (e : Combination) (n : Int) : Prop :=
  e.ask .size σ = .ok (.value (.int n))

/-! ### What combinations lead to -/

variable {σ τ : Store}

@[simp] theorem holds_union {e f : Combination} {v : Int} :
    (e ∪ f).Holds σ v ↔ e.Holds σ v ∨ f.Holds σ v :=
  Iff.rfl

@[simp] theorem holds_inter {e f : Combination} {v : Int} :
    (e ∩ f).Holds σ v ↔ e.Holds σ v ∧ f.Holds σ v :=
  Iff.rfl

@[simp] theorem holds_sdiff {e f : Combination} {v : Int} :
    (e \ f).Holds σ v ↔ e.Holds σ v ∧ ¬ f.Holds σ v :=
  Iff.rfl

theorem Known.union {e f : Combination} (he : e.Known σ) (hf : f.Known σ) : (e ∪ f).Known σ :=
  And.intro he hf

theorem Known.inter {e f : Combination} (he : e.Known σ) (hf : f.Known σ) : (e ∩ f).Known σ :=
  And.intro he hf

theorem Known.sdiff {e f : Combination} (he : e.Known σ) (hf : f.Known σ) : (e \ f).Known σ :=
  And.intro he hf

theorem Known.mono (h : σ.Extends τ) : {e : Combination} → e.Known σ → e.Known τ
  | .set place, hplace => by
    have hknows : τ.Knows (.runs place) := h.knows hplace
    exact hknows
  | .combine _ _ _, ⟨hleft, hright⟩ => ⟨hleft.mono h, hright.mono h⟩

theorem holds_of_extends (h : σ.Extends τ) {v : Int} : {e : Combination} → e.Known σ →
    (e.Holds τ v ↔ e.Holds σ v)
  | .set place, hplace => by rw [Holds, Holds, h.runsAt_eq hplace]
  | .combine _ _ _, ⟨hleft, hright⟩ =>
    Operator.selects_congr (holds_of_extends h hleft) (holds_of_extends h hright)

/-- What comes of evaluating a combination. -/
structure Yields (e : Combination) (σ : Store) (place : Nat) (τ : Store) : Prop where
  eval : e.eval σ = .ok (.runs place, τ)
  extension : σ.Extends τ
  canonical : τ.Canonical
  stored : place < τ.runs.size
  holds : ∀ v, (τ.runsAt place).Holds v ↔ e.Holds σ v

/-- An operator between what two combinations lead to. -/
theorem Yields.combine {op : Operator} {e f : Combination} {υ : Store} {i j : Nat}
    (he : e.Yields σ i τ) (hf : f.Yields τ j υ) (hknown : f.Known σ) :
    (Combination.combine op e f).Yields σ υ.runs.size
      (υ.addRuns (op.apply (υ.spelledAt i) (υ.spelledAt j))).2 where
  eval := by
    rw [Combination.eval]
    refine bind_eq_ok_iff.2 ⟨_, he.eval, bind_eq_ok_iff.2 ⟨_, hf.eval, ?_⟩⟩
    simp only [Request.perform_operator]
    rfl
  extension := he.extension.trans (hf.extension.trans (Store.extends_addRuns υ _))
  canonical :=
    hf.canonical.addRuns (op.canonical_apply (hf.canonical.spelledAt i) (hf.canonical.spelledAt j))
  stored := υ.knows_addRuns _
  holds v := by
    rw [υ.runsAt_addRuns, op.holds_apply (hf.canonical.spelledAt i) (hf.canonical.spelledAt j),
      Store.runs_spelledAt, Store.runs_spelledAt, hf.extension.runsAt_eq he.stored]
    exact Operator.selects_congr (he.holds v)
      ((hf.holds v).trans (holds_of_extends he.extension hknown))

/-- **Every combination of stored sets leads to a set of what it stands for.** The induction is on
the combination; its right part is evaluated in the store that its left part leaves. -/
theorem exists_yields : (e : Combination) → {σ : Store} → σ.Canonical → e.Known σ →
    ∃ place τ, e.Yields σ place τ
  | .set place, σ, hσ, hplace => ⟨place, σ, rfl, .refl σ, hσ, hplace, fun _ => Iff.rfl⟩
  | .combine op left right, σ, hσ, ⟨hleft, hright⟩ => by
    obtain ⟨i, τ, hi⟩ := exists_yields left hσ hleft
    obtain ⟨j, υ, hj⟩ := exists_yields right hi.canonical (hright.mono hi.extension)
    exact ⟨_, _, hi.combine hj hright⟩

/-! ### Questions about combinations -/

/-- **Combinations lead to equal sets if and only if they stand for the same integers.** -/
theorem areEqual_iff (hσ : σ.Canonical) {e f : Combination} (he : e.Known σ) (hf : f.Known σ) :
    AreEqual σ e f ↔ ∀ v, e.Holds σ v ↔ f.Holds σ v := by
  obtain ⟨i, τ, hi⟩ := e.exists_yields hσ he
  obtain ⟨j, υ, hj⟩ := f.exists_yields hi.canonical (hf.mono hi.extension)
  have hanswer : e.askEqual f σ = Query.answer υ .equal (.runs i) [.runs j] := by
    rw [askEqual, hi.eval]
    change (f.eval τ >>= _) = _
    rw [hj.eval]
    rfl
  have hleft (v : Int) : (υ.runsAt i).Holds v ↔ e.Holds σ v := by
    rw [hj.extension.runsAt_eq hi.stored, hi.holds]
  have hright (v : Int) : (υ.runsAt j).Holds v ↔ f.Holds σ v := by
    rw [hj.holds, holds_of_extends hi.extension hf]
  rw [AreEqual, hanswer, Query.answer_equal_iff,
    Runs.eq_iff_holds (hj.canonical.runsAt i) (hj.canonical.runsAt j)]
  simp only [hleft, hright]

/-- What a combination leads to is asked in the store that it leads to. -/
theorem Yields.ask {e : Combination} {place : Nat} (h : e.Yields σ place τ) (q : Query) :
    e.ask q σ = Query.answer τ q (.runs place) [] := by
  rw [Combination.ask, h.eval]
  rfl

theorem isEmpty_iff (hσ : σ.Canonical) {e : Combination} (he : e.Known σ) :
    IsEmpty σ e ↔ ∀ v, ¬ e.Holds σ v := by
  obtain ⟨i, τ, hi⟩ := e.exists_yields hσ he
  rw [IsEmpty, hi.ask, Query.answer_isEmpty hi.stored]
  simp only [← hi.holds, Except.ok.injEq, Product.value.injEq, Value.bool.injEq]
  exact Runs.isEmpty_iff (hi.canonical.runsAt i)

/-- The size of what a combination leads to is that of a canonical list of what it stands for. -/
theorem exists_hasSize (hσ : σ.Canonical) {e : Combination} (he : e.Known σ) :
    ∃ xs : Runs, xs.Canonical ∧ (∀ v, xs.Holds v ↔ e.Holds σ v) ∧ HasSize σ e xs.size := by
  obtain ⟨i, τ, hi⟩ := e.exists_yields hσ he
  refine ⟨τ.runsAt i, hi.canonical.runsAt i, hi.holds, ?_⟩
  rw [HasSize, hi.ask, Query.answer_size hi.stored]

/-! ### The laws -/

/-- Sizes add up as they do for finite sets of integers. -/
theorem exists_hasSize_add (hσ : σ.Canonical) {e f : Combination} (he : e.Known σ)
    (hf : f.Known σ) :
    ∃ sizeLeft sizeRight sizeUnion sizeInter sizeDiff,
      HasSize σ e sizeLeft ∧ HasSize σ f sizeRight ∧ HasSize σ (e ∪ f) sizeUnion ∧
      HasSize σ (e ∩ f) sizeInter ∧ HasSize σ (e \ f) sizeDiff ∧
      sizeUnion + sizeInter = sizeLeft + sizeRight ∧ sizeInter + sizeDiff = sizeLeft := by
  obtain ⟨xs, hxs, hxsHolds, hxsSize⟩ := exists_hasSize hσ he
  obtain ⟨ys, hys, hysHolds, hysSize⟩ := exists_hasSize hσ hf
  obtain ⟨us, hus, husHolds, husSize⟩ := exists_hasSize hσ (he.union hf)
  obtain ⟨ns, hns, hnsHolds, hnsSize⟩ := exists_hasSize hσ (he.inter hf)
  obtain ⟨ds, hds, hdsHolds, hdsSize⟩ := exists_hasSize hσ (he.sdiff hf)
  have hunion (v : Int) : us.Holds v ↔ xs.Holds v ∨ ys.Holds v := by
    rw [husHolds, holds_union, hxsHolds, hysHolds]
  have hinter (v : Int) : ns.Holds v ↔ xs.Holds v ∧ ys.Holds v := by
    rw [hnsHolds, holds_inter, hxsHolds, hysHolds]
  have hdiff (v : Int) : ds.Holds v ↔ xs.Holds v ∧ ¬ ys.Holds v := by
    rw [hdsHolds, holds_sdiff, hxsHolds, hysHolds]
  have hsum := Runs.size_add_size_of_holds hxs hys hus hns hunion hinter
  have hparts := Runs.size_add_size_of_partition hxs hns hds hinter hdiff
  exact ⟨_, _, _, _, _, hxsSize, hysSize, husSize, hnsSize, hdsSize, by omega, by omega⟩

/-- **The laws of the algebra of sets.** Between any three stored sets, different or not, the
operators agree with each other and with the size. -/
theorem algebra_laws (hσ : σ.Reachable) {a b u : Nat} (ha : a < σ.runs.size) (hb : b < σ.runs.size)
    (hu : u < σ.runs.size) :
    let A := set a
    let B := set b
    let U := set u
    (AreEqual σ (A ∩ B) (B ∩ A) ∧ AreEqual σ (B ∩ A) (A \ (A \ B))) ∧
    (AreEqual σ ((A ∩ B) ∪ (A \ B)) A ∧ IsEmpty σ ((A ∩ B) ∩ (A \ B))) ∧
    (AreEqual σ (U \ (A ∪ B)) ((U \ A) ∩ (U \ B)) ∧
      AreEqual σ (U \ (A ∩ B)) ((U \ A) ∪ (U \ B))) ∧
    AreEqual σ (A ∩ (B ∪ U)) ((A ∩ B) ∪ (A ∩ U)) ∧
    ∃ sizeA sizeB sizeUnion sizeInter sizeDiff,
      HasSize σ A sizeA ∧ HasSize σ B sizeB ∧ HasSize σ (A ∪ B) sizeUnion ∧
      HasSize σ (A ∩ B) sizeInter ∧ HasSize σ (A \ B) sizeDiff ∧
      sizeUnion + sizeInter = sizeA + sizeB ∧ sizeInter + sizeDiff = sizeA := by
  intro A B U
  have hA : A.Known σ := ha
  have hB : B.Known σ := hb
  have hU : U.Known σ := hu
  have hcanonical : σ.Canonical := hσ.canonical
  refine ⟨⟨?_, ?_⟩, ⟨?_, ?_⟩, ⟨?_, ?_⟩, ?_, exists_hasSize_add hcanonical hA hB⟩
  · refine (areEqual_iff hcanonical (hA.inter hB) (hB.inter hA)).2 fun v => ?_
    rw [holds_inter, holds_inter, and_comm]
  · refine (areEqual_iff hcanonical (hB.inter hA) (hA.sdiff (hA.sdiff hB))).2 fun v => ?_
    simp only [holds_inter, holds_sdiff]
    tauto
  · refine (areEqual_iff hcanonical ((hA.inter hB).union (hA.sdiff hB)) hA).2 fun v => ?_
    simp only [holds_union, holds_inter, holds_sdiff]
    tauto
  · refine (isEmpty_iff hcanonical ((hA.inter hB).inter (hA.sdiff hB))).2 fun v => ?_
    simp only [holds_inter, holds_sdiff]
    tauto
  · refine (areEqual_iff hcanonical (hU.sdiff (hA.union hB))
      ((hU.sdiff hA).inter (hU.sdiff hB))).2 fun v => ?_
    simp only [holds_union, holds_inter, holds_sdiff]
    tauto
  · refine (areEqual_iff hcanonical (hU.sdiff (hA.inter hB))
      ((hU.sdiff hA).union (hU.sdiff hB))).2 fun v => ?_
    simp only [holds_union, holds_inter, holds_sdiff]
    tauto
  · refine (areEqual_iff hcanonical (hA.inter (hB.union hU))
      ((hA.inter hB).union (hA.inter hU))).2 fun v => ?_
    simp only [holds_union, holds_inter]
    tauto

/-- Two sets that overlap, and the set of all characters, which holds one of them only in part. -/
theorem algebra_laws_overlap :
    let σ := Session.run .initial
      [⟨.make .range, [.int (-1), .int 9], some "a"⟩,
       ⟨.make .copy, [.list [.int 4, .int 12]], some "b"⟩]
    AreEqual σ (set 1 \ (set 2 ∩ set 3)) ((set 1 \ set 2) ∪ (set 1 \ set 3)) ∧
      ∃ sizeInter sizeDiff sizeA, HasSize σ (set 2 ∩ set 3) sizeInter ∧
        HasSize σ (set 2 \ set 3) sizeDiff ∧ HasSize σ (set 2) sizeA ∧
        sizeInter + sizeDiff = sizeA := by
  intro σ
  have ha : 2 < σ.runs.size := by decide +kernel +revert
  have hb : 3 < σ.runs.size := by decide +kernel +revert
  have hu : 1 < σ.runs.size := by decide +kernel +revert
  have hreachable : σ.Reachable := ⟨_, rfl⟩
  obtain ⟨-, -, ⟨-, hmorgan⟩, -, sizes⟩ := algebra_laws hreachable ha hb hu
  obtain ⟨sizeA, -, -, sizeInter, sizeDiff, hA, -, -, hInter, hDiff, -, hsum⟩ := sizes
  exact ⟨hmorgan, sizeInter, sizeDiff, sizeA, hInter, hDiff, hA, hsum⟩

end Combination

end SymbolSets
