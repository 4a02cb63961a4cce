import SymbolSets.Proofs.Session.Algebra
import SymbolSets.Proofs.Session.Freshness
import SymbolSets.Proofs.Session.Rejection
import SymbolSets.Proofs.Store.Listing

/-!
# What a collection is taken for

A set kept by runs is taken run by run, and every other collection integer by integer, in the order
in which it lists them. The requests that take a collection come to the same whichever way it is
taken: what they make depends on the integers that are listed, and on nothing else about the
collection.

An empty set that is its own mark makes the exception. It is frozen by the first thing that is added
to it, which is a whole run or a single integer.

## Main definitions

* `Operator.method`: the request that an operator stands for.
* `Recipe`: the ways to make a new set of a collection.
* `Step.StoresSet`: a step that answers with a new set.

## Main results

* `Contents.exists_combine_runs`: what a set is combined with a collection to.
* `Recipe.exists_storesSet`: what is made of a collection.
* `Step.addAll_of_accepts`, `Step.addAll_of_isFrozen`: what comes of adding a collection.
* `Session.same_of_lists_same`: two collections that list the same integers.
-/

namespace SymbolSets

/-- The request that does the same as an operator and does not check its operand. -/
def Operator.method : Operator → Derivation
  | .union => .union
  | .inter => .inter
  | .diff => .diff

/-- The ways to make a new set of a collection: it is copied, combined with a set, or taken for a
universe of which a set is taken away. -/
inductive Recipe
  | copy
  | combine (op : Operator)
  | complement

namespace Recipe

/-- The step that makes a set of the collection `x`, with the help of the set in the register
`name`. -/
def step (r : Recipe) (name : String) (x : Operand) (into : Option String) : Step :=
  match r with
  | .copy => ⟨.make .copy, [x], into⟩
  | .combine op => ⟨.send name (.derive op.method), [x], into⟩
  | .complement => ⟨.send name (.derive .complement), [x], into⟩

/-- Whether something is in the result, given whether it is in the set and in the collection. -/
def Selects : Recipe → Prop → Prop → Prop
  | .copy, _, q => q
  | .combine op, p, q => op.Selects p q
  | .complement, p, q => q ∧ ¬ p

end Recipe

namespace Step

/-- Combines the set in the register `name` with the collection `x` by an operator. -/
def operate (op : Operator) (name : String) (x : Operand) (into : Option String) : Step :=
  ⟨.send name (.derive (.operator op)), [x], into⟩

/-- Adds the collection `x` to the set in the register `name`. -/
def addAll (name : String) (x : Operand) (into : Option String) : Step :=
  ⟨.send name (.mutate .addAll), [x], into⟩

/-- The step answers with a new set, which has the given runs and is not frozen. -/
def StoresSet (s : Step) (σ : Store) (zs : Runs) : Prop :=
  ∃ place p, (s.run σ).2.result = .ok (.runs place) ∧ (s.run σ).1.runs[place]? = some p ∧
    p.runs = zs ∧ p.mark = .bool false

end Step

variable {σ τ : Store} {v : Value} {ns : List Int}

/-! ### A set and a collection -/

namespace Contents

/-- **What a set is combined with a collection to** depends on the integers that are listed. -/
theorem exists_combine_runs (hσ : σ.Canonical) (op : Operator) {xs : SpelledRuns}
    (hxs : xs.runs.Canonical) (h : σ.Lists v ns) :
    ∃ zs, combine σ op (.runs xs) v = .ok (.runs zs) ∧ zs.runs.Canonical ∧
      ∀ n, zs.runs.Holds n ↔ op.Selects (xs.runs.Holds n) (n ∈ ns) := by
  cases op with
  | union =>
    obtain ⟨added, hadded, hholds⟩ := h.exists_intervals?
    refine ⟨xs.insertAll added, by rw [combine, hadded]; rfl,
      SpelledRuns.canonical_insertAll hxs added, fun n => ?_⟩
    rw [SpelledRuns.holds_insertAll hxs, hholds]
    rfl
  | inter =>
    obtain ⟨ys, hys, hcanonical, hholds⟩ := h.exists_runs? hσ
    refine ⟨xs.inter ys, by rw [combine, hys]; rfl, SpelledRuns.canonical_inter _ _,
      fun n => ?_⟩
    rw [SpelledRuns.holds_inter hxs hcanonical, hholds]
    rfl
  | diff =>
    obtain ⟨ys, hys, hcanonical, hholds⟩ := h.exists_runs? hσ
    refine ⟨xs.diff ys, by rw [combine, hys]; rfl,
      SpelledRuns.canonical_diff hxs hcanonical, fun n => ?_⟩
    rw [SpelledRuns.holds_diff hxs hcanonical, hholds]
    rfl

end Contents

/-- What an operator refuses is no collection, or a text or bytes. -/
theorem Store.Lists.refusalText?_eq_none (h : σ.Lists v ns) (htext : v.kind ≠ .text)
    (hbytes : v.kind ≠ .bytes) : v.refusalText? = none := by
  obtain ⟨items, hitems, -⟩ := h
  cases v with
  | text t => exact absurd rfl htext
  | bytes bs => exact absurd rfl hbytes
  | nothing | bool | int | double | interval | vocabulary => cases hitems
  | _ => rfl

/-- A collection of integers is taken for the universe of its items. -/
theorem Store.Lists.universe?_eq (h : σ.Lists v ns) : Contents.universe? σ [v] = σ.runs? v := by
  rw [Contents.universe?, h.int?_eq_none]
  rintro rfl
  obtain ⟨items, hitems, -⟩ := h
  cases hitems

/-! ### New sets -/

namespace Step

variable {s : Step} {vs : List Value} {zs : SpelledRuns}

/-- A step that brings about a set kept by runs stores it. -/
theorem storesSet_of_act (hvs : Operand.values? s.operands σ = .ok (vs, τ))
    (h : s.act τ vs = τ.produce (.ok (.contents (.runs zs)))) :
    s.StoresSet σ zs.runs := by
  have hrun : s.run σ = (((τ.addRuns zs).2.bindResult s.into (.ok (.runs τ.runs.size))),
      ⟨.ok (.runs τ.runs.size), []⟩) := by
    simp only [run, perform, hvs, h]
    rfl
  refine ⟨τ.runs.size, ⟨zs, .bool false⟩, by rw [hrun], ?_, rfl, rfl⟩
  rw [hrun, Store.runs_bindResult, Store.addRuns, Array.getElem?_push_size]

theorem storesSet_of_make {m : Maker} (hs : s.action = .make m)
    (hvs : Operand.values? s.operands σ = .ok (vs, τ)) (h : m.make τ vs = .ok (.runs zs)) :
    s.StoresSet σ zs.runs := by
  refine storesSet_of_act hvs ?_
  simp only [act, hs, h]
  rfl

theorem storesSet_of_derive {name : String} {d : Derivation} {place : Nat}
    (hs : s.action = .send name (.derive d)) (hvs : Operand.values? s.operands σ = .ok (vs, τ))
    (hname : τ.value? name = some (.runs place))
    (h : d.ofContents τ (.runs (τ.spelledAt place)) vs = .ok (.runs zs)) :
    s.StoresSet σ zs.runs := by
  refine storesSet_of_act hvs ?_
  simp only [act, hs, hname, Request.perform, Derivation.derive, Store.contents?, h]
  rfl

end Step

section

variable {name : String} {place : Nat} {o : StoredRuns} {x : Operand}

/-- **What is made of a collection** depends on the integers that are listed. -/
theorem Recipe.exists_storesSet (hσ : σ.Canonical) (hname : σ.value? name = some (.runs place))
    (ho : σ.runs[place]? = some o) (hx : x.Lists σ ns) (r : Recipe) (into : Option String) :
    ∃ zs, zs.Canonical ∧ (r.step name x into).StoresSet σ zs ∧
      ∀ n, zs.Holds n ↔ r.Selects (o.runs.Holds n) (n ∈ ns) := by
  obtain ⟨v, τ, hv, hns⟩ := hx
  have hvs := Operand.values?_singleton hv
  have hext : σ.Extends τ := Operand.extends_of_values? hvs
  have hτ : τ.Canonical := Operand.values?_keeps Store.keptByReading_canonical _ hσ hvs
  have hτname : τ.value? name = some (.runs place) := (hext.value? name).trans hname
  have hruns : τ.spelledAt place = o.toSpelledRuns := Store.spelledAt_eq_of_getElem? (hext.runs ho)
  have hcanonical : o.runs.Canonical := hσ o (Array.mem_of_getElem? ho)
  cases r with
  | copy =>
    obtain ⟨ys, hys, hysCanonical, hholds⟩ := hns.exists_runs? hτ
    have hmake : Maker.make τ .copy [v] = .ok (.runs ys) := by rw [Maker.make, hys]; rfl
    exact ⟨ys.runs, hysCanonical, Step.storesSet_of_make rfl hvs hmake, hholds⟩
  | combine op =>
    obtain ⟨zs, hzs, hzsCanonical, hholds⟩ := Contents.exists_combine_runs hτ op hcanonical hns
    refine ⟨zs.runs, hzsCanonical, Step.storesSet_of_derive rfl hvs hτname ?_, hholds⟩
    rw [hruns, ← hzs]
    cases op with
    | union => rfl
    | inter => rfl
    | diff => rfl
  | complement =>
    obtain ⟨ys, hys, hysCanonical, hholds⟩ := hns.exists_runs? hτ
    refine ⟨(ys.diff o.toSpelledRuns).runs, SpelledRuns.canonical_diff hysCanonical hcanonical,
      Step.storesSet_of_derive rfl hvs hτname ?_, fun n => ?_⟩
    · rw [Derivation.ofContents, Contents.complement, hns.universe?_eq, hys, hruns]
      rfl
    · rw [SpelledRuns.holds_diff hysCanonical hcanonical, hholds]
      rfl

/-- An operator does what the request does that it stands for, if it takes the collection. -/
theorem Step.run_operate (hname : σ.value? name = some (.runs place))
    (hv : x.value? σ = .ok (v, τ)) (hshown : v.refusalText? = none) (op : Operator)
    (into : Option String) :
    (Step.operate op name x into).run σ = ((Recipe.combine op).step name x into).run σ := by
  have hvs := Operand.values?_singleton hv
  have hext : σ.Extends τ := Operand.extends_of_values? hvs
  have hτname : τ.value? name = some (.runs place) := (hext.value? name).trans hname
  have hderive : Derivation.derive (.operator op) τ (.runs place) [v] =
      op.method.derive τ (.runs place) [v] := by
    simp only [Derivation.derive, Store.contents?, Derivation.ofContents,
      Contents.operate_of_taken τ hshown]
    cases op with
    | union => rfl
    | inter => rfl
    | diff => rfl
  simp only [run, perform, operate, Recipe.step, hvs, act, hτname, Request.perform, hderive]

/-! ### Additions to a set -/

/-- Adding a collection is read as a call. -/
theorem Step.call?_addAll (hname : σ.value? name = some (.runs place)) (hx : x.Lists σ ns)
    (into : Option String) : (Step.addAll name x into).call? σ place = some (.addAll ns) := by
  obtain ⟨v, τ, hv, items, hitems, hints, rfl⟩ := hx
  have hvs := Operand.values?_singleton hv
  have hext : σ.Extends τ := Operand.extends_of_values? hvs
  have hall : items.all (fun w => w.int?.isSome) = true := List.all_eq_true.2 hints
  simp only [call?, addAll, hvs, (hext.value? name).trans hname, if_true, Mutation.call?, hitems,
    hall]

/-- **A set that accepts changes takes in the integers that are listed.** -/
theorem Step.addAll_of_accepts (hσ : σ.Reachable) (hname : σ.value? name = some (.runs place))
    (ho : σ.runs[place]? = some o) (hx : x.Lists σ ns) (haccepts : σ.Accepts place o)
    (into : Option String) :
    ∃ p, p.runs.Canonical ∧ ((Step.addAll name x into).run σ).2.result = .ok (.runs place) ∧
      ((Step.addAll name x into).run σ).1.runs[place]? = some p ∧ p.mark = o.mark ∧
      ∀ n, p.runs.Holds n ↔ n ∈ ns ∨ o.runs.Holds n := by
  have hcall := Step.call?_addAll hname hx into
  have hresult := Step.result_addAll hσ rfl hname ho hcall haccepts
  obtain ⟨τ, effect, hext, hchanges, hok, hrun⟩ := run_of_call? hσ.canonical ho hcall
  have hfault : effect.fault = none := hok.1 (by rw [hresult]; rfl)
  have hafter : ((Step.addAll name x into).run σ).1.runs[place]? = some effect.object := by
    rw [hrun, Store.runs_bindResult, Store.getElem?_setRuns (hext.runs ho)]
  refine ⟨effect.object, ?_, hresult, hafter, hchanges.mark, fun n => ?_⟩
  · exact (hσ.step _).canonical _ (Array.mem_of_getElem? hafter)
  · rw [hchanges.holds hfault, Call.leaves_addAll]

/-- **A frozen set rejects a collection that is not empty,** and stays as it is. -/
theorem Step.addAll_of_isFrozen (hσ : σ.Reachable) (hname : σ.value? name = some (.runs place))
    (ho : σ.runs[place]? = some o) (hx : x.Lists σ ns) (hfrozen : σ.isFrozen place o = true)
    (into : Option String) :
    ((Step.addAll name x into).run σ).2.result =
        (if ns = [] then .ok (.runs place) else .error (.frozen .add)) ∧
      ((Step.addAll name x into).run σ).1.runs[place]? = some o := by
  obtain ⟨name', m, vs, τ, hs, hvs, hname', hcall⟩ :=
    exists_of_call? (Step.call?_addAll hname hx into)
  cases hs
  have hext : σ.Extends τ := Operand.extends_of_values? hvs
  have hτ : τ.isFrozen place o = true := by rw [hext.isFrozen_eq hσ.closed ho, hfrozen]
  have hcanonical : τ.Canonical :=
    Operand.values?_keeps Store.keptByReading_canonical _ hσ.canonical hvs
  have heffect := Mutation.applyRuns_of_isFrozen hcanonical hτ hcall
  obtain ⟨hp, -⟩ := (Step.addAll name x into).stored_run_mutate rfl hvs hname ho
  rw [Step.run_mutate rfl hvs hname ho] at hp ⊢
  rw [heffect] at hp ⊢
  simp only [Call.addAll.injEq] at hp ⊢
  split_ifs at hp ⊢ with hnil
  · exact ⟨rfl, hp⟩
  · exact ⟨rfl, hp⟩

/-! ### Two collections -/

variable {y : Operand} {ms : List Int}

/-- Adding two collections that list the same integers leaves equal sets. The set is either frozen
before or accepts changes. -/
theorem Step.addAll_same (hσ : σ.Reachable) (hname : σ.value? name = some (.runs place))
    (ho : σ.runs[place]? = some o) (hx : x.Lists σ ns) (hy : y.Lists σ ms)
    (hsame : ∀ n, n ∈ ns ↔ n ∈ ms) (hown : ¬ (o.runs = [] ∧ o.mark = .runs place))
    (into : Option String) :
    ((Step.addAll name x into).run σ).2.result = ((Step.addAll name y into).run σ).2.result ∧
      ∃ p q, ((Step.addAll name x into).run σ).1.runs[place]? = some p ∧
        ((Step.addAll name y into).run σ).1.runs[place]? = some q ∧ p.runs = q.runs ∧
          p.mark = q.mark := by
  cases hfrozen : σ.isFrozen place o with
  | true =>
    obtain ⟨hxResult, hxAfter⟩ := Step.addAll_of_isFrozen hσ hname ho hx hfrozen into
    obtain ⟨hyResult, hyAfter⟩ := Step.addAll_of_isFrozen hσ hname ho hy hfrozen into
    have hnil : ns = [] ↔ ms = [] := by
      simp only [List.eq_nil_iff_forall_not_mem, hsame]
    exact ⟨by rw [hxResult, hyResult]; simp only [hnil], o, o, hxAfter, hyAfter, rfl, rfl⟩
  | false =>
    have haccepts : σ.Accepts place o := by
      refine ⟨hfrozen, fun hmark => hown ⟨?_, hmark⟩⟩
      simpa [Store.isFrozen, hmark] using hfrozen
    obtain ⟨p, hp, hxResult, hxAfter, hpMark, hpHolds⟩ :=
      Step.addAll_of_accepts hσ hname ho hx haccepts into
    obtain ⟨q, hq, hyResult, hyAfter, hqMark, hqHolds⟩ :=
      Step.addAll_of_accepts hσ hname ho hy haccepts into
    have hruns : p.runs = q.runs := hp.ext hq fun n => by rw [hpHolds, hqHolds, hsame]
    exact ⟨hxResult.trans hyResult.symm, p, q, hxAfter, hyAfter, hruns, hpMark.trans hqMark.symm⟩

end

namespace Session

variable {name : String} {place : Nat} {o : StoredRuns} {x y : Operand} {ns ms : List Int}

/-- **Collections that list the same integers are taken for the same,** in whatever order they list
them, however often, and whether they are kept by runs or not. Whatever is made of them has the same
runs, and so has a set to which they are added, unless it is empty and its own mark. Where a frozen
set rejects the one, it rejects the other. An operator makes the same set as the request that it
stands for. -/
theorem same_of_lists_same (hσ : σ.Reachable) (hname : σ.value? name = some (.runs place))
    (ho : σ.runs[place]? = some o) (hx : x.Lists σ ns) (hy : y.Lists σ ms)
    (hsame : ∀ n, n ∈ ns ↔ n ∈ ms) (into : Option String) :
    (∀ r : Recipe, ∃ zs, (r.step name x into).StoresSet σ zs ∧
      (r.step name y into).StoresSet σ zs) ∧
    (¬ (o.runs = [] ∧ o.mark = .runs place) →
      ((Step.addAll name x into).run σ).2.result = ((Step.addAll name y into).run σ).2.result ∧
        ∃ p q, ((Step.addAll name x into).run σ).1.runs[place]? = some p ∧
          ((Step.addAll name y into).run σ).1.runs[place]? = some q ∧ p.runs = q.runs ∧
            p.mark = q.mark) ∧
    ∀ {v τ}, x.value? σ = .ok (v, τ) → v.kind ≠ .text → v.kind ≠ .bytes → ∀ op : Operator,
      ∃ zs, (Step.operate op name x into).StoresSet σ zs ∧
        ((Recipe.combine op).step name x into).StoresSet σ zs := by
  refine ⟨fun r => ?_, fun hown => Step.addAll_same hσ hname ho hx hy hsame hown into,
    fun {v τ} hv htext hbytes op => ?_⟩
  · obtain ⟨xs, hxs, hxStores, hxHolds⟩ := r.exists_storesSet hσ.canonical hname ho hx into
    obtain ⟨ys, hys, hyStores, hyHolds⟩ := r.exists_storesSet hσ.canonical hname ho hy into
    obtain rfl : xs = ys := hxs.ext hys fun n => by rw [hxHolds, hyHolds, hsame]
    exact ⟨xs, hxStores, hyStores⟩
  · obtain ⟨zs, -, hstores, -⟩ :=
      (Recipe.combine op).exists_storesSet hσ.canonical hname ho hx into
    obtain ⟨v', τ', hv', hns⟩ := hx
    cases hv.symm.trans hv'
    have hshown := hns.refusalText?_eq_none htext hbytes
    refine ⟨zs, ?_, hstores⟩
    rwa [Step.StoresSet, Step.run_operate hname hv hshown]

/-- A set is given as a run, and as a list that names two of its integers in two ways. -/
theorem same_of_lists_same_repeated :
    let σ := run .initial [⟨.make .copy, [.list [.int 9, .int 0]], some "s"⟩]
    let x : Operand := .runs [.interval (.int 0) (.int 2)]
    let y : Operand := .list [.int 2, .bool true, .int 0, .int 1, .bool false]
    (∃ zs, ((Recipe.combine .diff).step "s" x none).StoresSet σ zs ∧
      ((Recipe.combine .diff).step "s" y none).StoresSet σ zs) ∧
    (∃ p q, ((Step.addAll "s" x none).run σ).1.runs[2]? = some p ∧
      ((Step.addAll "s" y none).run σ).1.runs[2]? = some q ∧ p.runs = q.runs) ∧
    ∃ zs, (Step.operate .inter "s" x none).StoresSet σ zs ∧
      ((Recipe.combine .inter).step "s" x none).StoresSet σ zs := by
  intro σ x y
  have hname : σ.value? "s" = some (.runs 2) := by rfl
  have ho : σ.runs[2]? = some ⟨.plain [⟨0, 0⟩, ⟨9, 9⟩], .bool false⟩ := by rfl
  have hx : x.Lists σ [0, 1, 2] := ⟨_, _, rfl, _, rfl, by decide, rfl⟩
  have hy : y.Lists σ [2, 1, 0, 1, 0] := ⟨_, _, rfl, _, rfl, by decide, rfl⟩
  have hsame : ∀ n : Int, n ∈ [0, 1, 2] ↔ n ∈ [2, 1, 0, 1, 0] := fun n => by
    simp only [List.mem_cons, List.not_mem_nil, or_false]
    omega
  obtain ⟨hmade, hadded, hoperator⟩ := same_of_lists_same ⟨_, rfl⟩ hname ho hx hy hsame none
  obtain ⟨-, p, q, hp, hq, hruns, -⟩ := hadded nofun
  exact ⟨hmade (.combine .diff), ⟨p, q, hp, hq, hruns⟩, hoperator rfl nofun nofun .inter⟩

/-- An empty set that is its own mark tells a run from its integers. It takes in the first run, or
the first integer of the list, and rejects what follows. -/
theorem not_same_of_own_mark :
    ¬ ∀ {σ : Store} {name : String} {place : Nat} {x y : Operand} {ns ms : List Int},
      σ.Reachable → σ.value? name = some (.runs place) → x.Lists σ ns → y.Lists σ ms →
        (∀ n, n ∈ ns ↔ n ∈ ms) →
          ((Step.addAll name x none).run σ).1.runsAt place =
            ((Step.addAll name y none).run σ).1.runsAt place := by
  intro h
  let σ := run .initial
    [⟨.make .copy, [], some "s"⟩, ⟨.send "s" (.mutate .mark), [.register "s"], none⟩]
  let x : Operand := .runs [.interval (.int 1) (.int 2), .interval (.int 5) (.int 6)]
  let y : Operand := .list [.int 1, .int 2, .int 5, .int 6]
  have hafter : ((Step.addAll "s" x none).run σ).1.runsAt 2 = [⟨1, 2⟩] ∧
      ((Step.addAll "s" y none).run σ).1.runsAt 2 = [⟨1, 1⟩] := by decide +kernel +revert
  have hname : σ.value? "s" = some (.runs 2) := by rfl
  have hx : x.Lists σ [1, 2, 5, 6] := ⟨_, _, rfl, _, rfl, by decide, rfl⟩
  have hy : y.Lists σ [1, 2, 5, 6] := ⟨_, _, rfl, _, rfl, by decide, rfl⟩
  have hsame := h ⟨_, rfl⟩ hname hx hy fun _ => Iff.rfl
  rw [hafter.1, hafter.2] at hsame
  cases hsame

end Session

end SymbolSets
