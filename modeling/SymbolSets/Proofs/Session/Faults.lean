import SymbolSets.Proofs.Session.Outcome

/-!
# Who is told that a set is frozen

Two faults come of frozen sets: a change is rejected, or the mark is kept. No other request ends in
one of them. Reading operands, making new sets, deriving sets from others, answering questions and
changing sets that cannot be frozen all have faults of their own.

## Main definitions

* `Fault.isReadonly`: the faults that come of frozen sets.
* `Mild`: outcomes other than these faults.

## Main results

* `Operand.mild_values?`, `Maker.mild_make`, `Derivation.mild_derive`, `Query.mild_answer`: requests
  that ask for no change.
* `Mutation.isReadonly_applyElements`, `Mutation.isReadonly_applyList`: changes to other objects.
-/

namespace SymbolSets

/-- Whether the fault tells that a set is frozen. -/
@[simp] def Fault.isReadonly : Fault → Bool
  | .frozen _ | .markKept => true
  | _ => false

/-- If the outcome is a fault, it does not tell that a set is frozen. -/
def Mild {α : Type} (x : Except Fault α) : Prop :=
  ∀ fault, x = .error fault → fault.isReadonly = false

/-! ### Mild outcomes -/

section

variable {α β : Type} {x : Except Fault α} {fault : Fault}

@[simp] theorem mild_ok (a : α) : Mild (.ok a : Except Fault α) :=
  nofun

@[simp] theorem mild_error_iff : Mild (.error fault : Except Fault α) ↔ fault.isReadonly = false :=
  ⟨fun h => h fault rfl, fun h f hf => by cases hf; exact h⟩

@[simp] theorem mild_map_iff {f : α → β} : Mild (x.map f) ↔ Mild x := by
  cases x with
  | error fault => exact mild_error_iff.trans mild_error_iff.symm
  | ok a => exact iff_of_true (mild_ok _) (mild_ok _)

@[simp] theorem Mild.bind {f : α → Except Fault β} (hx : Mild x) (hf : ∀ a, Mild (f a)) :
    Mild (x >>= f) := by
  cases x with
  | error fault => exact mild_error_iff.2 (mild_error_iff.1 hx)
  | ok a => exact hf a

@[simp] theorem Mild.except_bind {f : α → Except Fault β} (hx : Mild x) (hf : ∀ a, Mild (f a)) :
    Mild (x.bind f) :=
  hx.bind hf

@[simp] theorem mild_elim {o : Option α} {f : α → Except Fault β} (hx : fault.isReadonly = false)
    (hf : ∀ a, Mild (f a)) : Mild (o.elim (.error fault) f) := by
  cases o with
  | none => exact mild_error_iff.2 hx
  | some a => exact hf a

@[simp] theorem mild_ite_iff {c : Prop} [Decidable c] {x y : Except Fault α} :
    Mild (if c then x else y) ↔ (c → Mild x) ∧ (¬ c → Mild y) := by
  split_ifs with h <;> simp [h]

theorem mild_mapM {f : α → Except Fault β} : {as : List α} → (∀ a ∈ as, Mild (f a)) →
    Mild (as.mapM f)
  | [], _ => mild_ok _
  | a :: as, h => by
    rw [List.mapM_cons]
    exact (h a List.mem_cons_self).bind fun b =>
      (mild_mapM fun a ha => h a (List.mem_cons_of_mem _ ha)).bind fun bs => mild_ok _

theorem mild_foldlM {f : β → α → Except Fault β} (h : ∀ b a, Mild (f b a)) :
    (as : List α) → (b : β) → Mild (as.foldlM f b)
  | [], b => mild_ok b
  | a :: as, b => by
    rw [List.foldlM_cons]
    exact (h b a).bind (mild_foldlM h as)

end

/-! ### Values and collections -/

namespace Value

@[simp] theorem mild_interval? (lo hi : Value) : Mild (interval? lo hi) := by
  rw [interval?]
  split <;> simp

@[simp] theorem mild_single? (v : Value) : Mild v.single? :=
  mild_interval? v v

@[simp] theorem mild_allIntervals? (vs : List Value) : Mild (allIntervals? vs) := by
  refine mild_mapM fun v _ => ?_
  split <;> simp

@[simp] theorem mild_double? (v : Value) : Mild v.double? := by
  rw [double?.eq_def]
  split
  · simp
  · split
    · exact mild_elim rfl mild_ok
    · simp

@[simp] theorem mild_difference? (v w : Value) : Mild (v.difference? w) := by
  rw [difference?]
  split
  · simp
  · split <;> simp

@[simp] theorem mild_operate? (op : Operator) (v w : Value) : Mild (v.operate? op w) := by
  rw [operate?.eq_def]
  split
  · simp
  · simp
  · simp
  · split <;> simp
  · split <;> simp

end Value

@[simp] theorem mild_countable? (n : Nat) : Mild (countable? n) := by
  simp [countable?]

@[simp] theorem Enumerated.mild_listed? (es : Enumerated) : Mild es.listed? := by
  simp [listed?]

namespace Additions

/-- What is wrong with items has nothing to do with the set that they are added to. -/
def AreMild : Additions → Prop
  | .items xs => ∀ x ∈ xs, Mild x
  | .progression _ => True

/-- What comes next is mild, and so is what follows it. -/
theorem AreMild.of_next? {added rest : Additions} {x : Except Fault Span} (h : added.AreMild)
    (hx : added.next? = some (x, rest)) : Mild x ∧ rest.AreMild := by
  rw [next?.eq_def] at hx
  split at hx
  · cases hx
  · cases hx
    exact ⟨h _ List.mem_cons_self, fun y hy => h y (List.mem_cons_of_mem _ hy)⟩
  · split_ifs at hx with hcount
    cases hx
    exact ⟨mild_ok _, trivial⟩

theorem AreMild.intervals? {added : Additions} (h : added.AreMild) : Mild added.intervals? := by
  cases added with
  | items xs => exact mild_mapM h
  | progression p => exact mild_ok _

end Additions

namespace Store

variable (σ : Store)

@[simp] theorem mild_items? (v : Value) : Mild (σ.items? v) := by
  cases v <;> simp [items?]

@[simp] theorem mild_pulled? (v : Value) : Mild (σ.pulled? v) := by
  cases v <;> simp [pulled?]

variable {σ} in
/-- A collection breaks off in a fault of its own, which rejects nothing. -/
theorem isReadonly_of_pulled? {v : Value} {vs : List Value} {fault : Fault}
    (h : σ.pulled? v = .ok (vs, some fault)) : fault.isReadonly = false := by
  rw [pulled?.eq_def] at h
  split at h
  · cases h
    rfl
  · obtain ⟨items, -, hnone⟩ := map_eq_ok_iff.1 h
    cases hnone

@[simp] theorem mild_leading? (n : Nat) (v : Value) : Mild (σ.leading? n v) := by
  cases v <;> simp [leading?]

@[simp] theorem mild_count? (v : Value) : Mild (σ.count? v) := by
  cases v <;> simp [count?]

@[simp] theorem mild_listed? (v : Value) : Mild (σ.listed? v) := by
  cases v <;> simp [listed?]

@[simp] theorem mild_additions? (v : Value) : Mild (σ.additions? v) := by
  cases v <;> simp [additions?]

variable {σ} in
theorem areMild_of_additions? {v : Value} {added : Additions} (h : σ.additions? v = .ok added) :
    added.AreMild := by
  rw [additions?.eq_def] at h
  split at h
  · cases h
    simp [Additions.AreMild]
  · cases h
    trivial
  · obtain ⟨⟨vs, broken⟩, hvs, rfl⟩ := map_eq_ok_iff.1 h
    cases broken with
    | none => simp [Additions.AreMild]
    | some fault =>
      intro x hx
      rcases List.mem_append.1 hx with hx | hx
      · obtain ⟨w, -, rfl⟩ := List.mem_map.1 hx
        exact w.mild_single?
      · obtain rfl := List.mem_singleton.1 hx
        exact mild_error_iff.2 (isReadonly_of_pulled? hvs)

@[simp] theorem mild_intervals? (v : Value) : Mild (σ.intervals? v) := by
  rw [intervals?]
  cases h : σ.additions? v with
  | error fault => exact mild_error_iff.2 (mild_error_iff.1 (h ▸ σ.mild_additions? v))
  | ok added => exact (areMild_of_additions? h).intervals?

@[simp] theorem mild_runs? (v : Value) : Mild (σ.runs? v) := by
  cases v <;> simp [runs?]

@[simp] theorem mild_elements? (v : Value) : Mild (σ.elements? v) := by
  rw [elements?]
  cases h : σ.pulled? v with
  | error fault => exact mild_error_iff.2 (mild_error_iff.1 (h ▸ σ.mild_pulled? v))
  | ok pulled =>
    obtain ⟨vs, _ | fault⟩ := pulled
    · simp [Except.bind]
    · exact mild_ite_iff.2 ⟨fun _ => mild_error_iff.2 (isReadonly_of_pulled? h),
        fun _ => mild_error_iff.2 rfl⟩

end Store

/-! ### New sets -/

namespace IntSet

variable {α β : Type} {I : IntSet α β} (hI : ∀ op a b, Mild (I.combine op a b))

include hI in
theorem mild_operate (op : Operator) (a : α) (b : β) : Mild (I.operate op a b) := by
  rw [operate]
  split
  · simp
  · exact hI op a b

include hI in
/-- What an operator refuses is not rejected, so folds reject what the methods do. -/
theorem mild_fold (f : Fold) (first : α) (rest : List β) : Mild (I.fold f first rest) :=
  (hI .union first I.noItems).bind fun copy => mild_foldlM (mild_operate hI f.operator) rest copy

end IntSet

namespace Contents

variable (σ : Store)

@[simp] theorem mild_combine (op : Operator) (c : Contents) (v : Value) :
    Mild (c.combine σ op v) := by
  cases c with
  | runs xs => cases op <;> simp [combine]
  | enumerated es => simp [combine, Enumerated.implementation, Enumerated.ofItem?]

@[simp] theorem mild_operate (op : Operator) (c : Contents) (v : Value) :
    Mild (c.operate σ op v) :=
  IntSet.mild_operate (mild_combine σ) op c v

@[simp] theorem mild_universe? (vs : List Value) : Mild (universe? σ vs) := by
  rw [universe?.eq_def]
  split
  · simp
  · simp
  · simp
  · split <;> simp
  · split <;> simp
  · split <;> simp
  · simp

@[simp] theorem mild_complement (c : Contents) (vs : List Value) : Mild (c.complement σ vs) := by
  cases c with
  | runs xs => simp [complement]
  | enumerated es =>
    simp only [complement.eq_def]
    split <;> simp

end Contents

namespace Derivation

variable (σ : Store)

@[simp] theorem mild_ofContents (d : Derivation) (c : Contents) (vs : List Value) :
    Mild (d.ofContents σ c vs) := by
  rw [ofContents.eq_def]
  split <;> simp

@[simp] theorem mild_ofValue (d : Derivation) (v : Value) (vs : List Value) :
    Mild (d.ofValue v vs) := by
  rw [ofValue.eq_def]
  split <;> simp

/-- **What is derived from others is not rejected.** -/
theorem mild_derive (d : Derivation) (v : Value) (vs : List Value) : Mild (d.derive σ v vs) := by
  rw [derive]
  split <;> simp

end Derivation

namespace Maker

variable (σ : Store)

@[simp] theorem mild_differenceFrom? (xs : SpelledRuns) (v : Value) :
    Mild (differenceFrom? σ xs v) := by
  rw [differenceFrom?]
  split <;> simp

@[simp] theorem mild_difference? (left right : Value) : Mild (difference? σ left right) := by
  rw [difference?]
  split <;> simp

@[simp] theorem mild_fold? (f : Fold) (first : Value) (rest : List Value) :
    Mild (fold? σ f first rest) := by
  rw [fold?]
  split
  · exact IntSet.mild_fold (Contents.mild_combine σ) f _ rest
  · simp

/-- **What is made of values is not rejected.** -/
theorem mild_make (m : Maker) (vs : List Value) : Mild (m.make σ vs) := by
  rw [make.eq_def]
  split
  case h_7 => exact mild_foldlM (Contents.mild_combine σ .union) _ _
  all_goals simp

end Maker

/-! ### Answers -/

@[simp] theorem Runs.mild_admits? (xs : Runs) (v : Value) : Mild (xs.admits? v) := by
  rw [admits?.eq_def]
  split <;> simp

theorem Runs.mild_namedText? {name? : Int → Except Fault Text} (h : ∀ v, Mild (name? v))
    (xs : Runs) : Mild (xs.namedText? name?) := by
  have hitems : Mild (xs.namedItems? name?) := mild_mapM fun e _ => by
    cases reservedName? e with
    | none => exact h e
    | some t => exact mild_ok t
  simp [namedText?, hitems]

namespace Store

variable (σ : Store)

@[simp] theorem mild_holds? (home v : Value) : Mild (σ.holds? home v) := by
  rw [holds?.eq_def]
  split
  case h_6 => split <;> simp
  case h_7 => split <;> simp
  case h_8 => split <;> simp
  all_goals simp

@[simp] theorem mild_digest? (v : Value) : Mild (σ.digest? v) := by
  rw [digest?.eq_def]
  split
  · simp
  · simp
  · exact mild_elim rfl mild_ok

@[simp] theorem mild_name? (place : Nat) (symbol : Int) : Mild (σ.name? place symbol) := by
  rw [name?]
  split <;> simp

end Store

namespace Query

variable (σ : Store)

@[simp] theorem mild_limit? (v : Value) : Mild (limit? v) := by
  rw [limit?.eq_def]
  split <;> simp

@[simp] theorem mild_take? (subject limit : Value) : Mild (take? σ subject limit) := by
  refine (σ.mild_leading? 0 subject).bind fun _ => (mild_limit? limit).bind fun n => ?_
  cases n with
  | none => exact σ.mild_items? subject
  | some n => exact σ.mild_leading? n subject

@[simp] theorem mild_namedText? (xs : SpelledRuns) (names characters : Value) :
    Mild (namedText? σ xs names characters) := by
  have hrefused : Mild (xs.runs.namedText? fun _ => .error .unsupported) :=
    Runs.mild_namedText? (fun _ => by simp) xs.runs
  rw [namedText?.eq_def]
  split
  · simp
  · exact Runs.mild_namedText? (σ.mild_name? _) xs.runs
  · simp [hrefused]

@[simp] theorem mild_doubleAt? (xs : Runs) (d : Double) : Mild (xs.doubleAt? d) := by
  induction xs generalizing d with
  | nil => exact mild_ok _
  | cons x xs ih =>
    rw [Runs.doubleAt?]
    split_ifs
    · exact mild_elim rfl fun length => ih _
    · exact mild_elim rfl fun lo => mild_ok _

@[simp] theorem mild_position? (xs : Runs) (v : Value) : Mild (position? xs v) := by
  rw [position?.eq_def]
  split
  · simp
  · split_ifs <;> simp
  · simp

@[simp] theorem mild_givenMark? (mark : Option Value) : Mild (givenMark? mark) :=
  mild_elim rfl fun _ => mild_ok _

@[simp] theorem mild_answerRuns (q : Query) (mark : Value) (xs : SpelledRuns) (vs : List Value) :
    Mild (q.answerRuns σ mark xs vs) := by
  rw [answerRuns.eq_def]
  split
  case h_5 => exact mild_elim rfl fun _ => mild_ok _
  case h_6 => exact mild_elim rfl fun _ => mild_ok _
  all_goals simp

@[simp] theorem mild_answerElements (q : Query) (mark : Option Value) (es : Enumerated)
    (vs : List Value) : Mild (q.answerElements σ mark es vs) := by
  rw [answerElements.eq_def]
  split <;> simp

@[simp] theorem mild_answerObject (q : Query) (subject : Value) (vs : List Value) :
    Mild (q.answerObject σ subject vs) := by
  rw [answerObject.eq_def]
  split
  · split <;> simp
  · split <;> simp
  · split <;> simp
  · simp

/-- **No question is rejected.** -/
theorem mild_answer (q : Query) (subject : Value) (vs : List Value) :
    Mild (q.answer σ subject vs) := by
  rw [answer.eq_def]
  split <;> simp

end Query

/-! ### Operands -/

namespace Store

variable (σ : Store)

@[simp] theorem mild_itemRole? (v : Value) : Mild (itemRole? v) := by
  cases v <;> simp [itemRole?]

@[simp] theorem mild_role? (name : Value) : Mild (σ.role? name) := by
  rw [role?.eq_def]
  split
  · simp
  · split_ifs with htrue
    · split <;> simp
    · simp

@[simp] theorem mild_vocabulary? (l s d : Value) : Mild (σ.vocabulary? l s d) :=
  (σ.mild_listed? l).bind fun _ => (σ.mild_listed? s).bind fun _ =>
    (σ.mild_listed? d).bind fun _ => mild_ok _

@[simp] theorem mild_classify? (names : Value) : Mild (σ.classify? names) := by
  rw [classify?]
  split_ifs with htrue
  · exact (σ.mild_listed? names).bind fun items =>
      (mild_mapM fun name _ => σ.mild_role? name).bind fun roles => mild_ok _
  · exact mild_ok _

end Store

namespace Operand

mutual

/-- Reading an operand is not rejected. The induction is on the operand. -/
theorem mild_value? : (o : Operand) → (σ : Store) → Mild (o.value? σ)
  | .nothing, _ | .bool _, _ | .int _, _ | .double _, _ | .text _, _ => mild_ok _
  | .bytes ns, _ => by simp [value?, bytes?]
  | .progression start stop step, _ => by simp [value?, progression?]
  | .list items, σ => (mild_values? items σ).bind fun _ => mild_ok _
  | .failing items, σ => (mild_values? items σ).bind fun _ => mild_ok _
  | .interval lo hi, σ => (mild_value? lo σ).bind fun a => (mild_value? hi a.2).bind fun b =>
      (Value.mild_interval? a.1 b.1).bind fun _ => mild_ok _
  | .runs items, σ => (mild_values? items σ).bind fun vs =>
      (Value.mild_allIntervals? vs.1).bind fun _ => mild_ok _
  | .enumerated elements, σ => (mild_value? elements σ).bind fun v =>
      (v.2.mild_elements? v.1).bind fun _ => mild_ok _
  | .register name, σ => by
    rw [value?]
    split <;> simp
  | .vocabulary literal symbolic display, σ => (mild_value? literal σ).bind fun l =>
      (mild_value? symbolic l.2).bind fun s => (mild_value? display s.2).bind fun d =>
        d.2.mild_vocabulary? l.1 s.1 d.1
  | .classified names, σ => (mild_value? names σ).bind fun v => v.2.mild_classify? v.1

/-- **Reading operands is not rejected.** -/
theorem mild_values? : (os : List Operand) → (σ : Store) → Mild (values? os σ)
  | [], _ => mild_ok _
  | o :: os, σ => (mild_value? o σ).bind fun v => (mild_values? os v.2).bind fun _ => mild_ok _

end

end Operand

/-! ### Changes to objects that cannot be frozen -/

namespace Store

/-- An item that can be no element is at fault whatever the set is. -/
theorem isReadonly_leadingElements (σ : Store) {fault : Fault} {vs : List Value}
    {broken : Option Fault} (hbroken : ∀ fault ∈ broken, fault.isReadonly = false)
    (h : (σ.leadingElements vs broken).2 = some fault) : fault.isReadonly = false := by
  rw [leadingElements] at h
  split_ifs at h with hall
  · exact hbroken fault h
  · cases h
    rfl

end Store

namespace Mutation

variable {σ : Store} {fault : Fault}

theorem isReadonly_applyElements {m : Mutation} {o : StoredElements} {vs : List Value}
    (h : (m.applyElements σ o vs).fault = some fault) : fault.isReadonly = false := by
  rw [applyElements.eq_def] at h
  split at h
  · refine σ.isReadonly_leadingElements (fun fault hfault => ?_) h
    cases hfault
  · split at h
    · rename_i items broken hpulled
      refine σ.isReadonly_leadingElements (fun fault hfault => ?_) h
      exact Store.isReadonly_of_pulled? (hpulled.trans (by rw [Option.mem_def.1 hfault]))
    · rename_i other herror
      cases h
      exact σ.mild_pulled? _ _ herror
  · split_ifs at h with hv
    · cases h
    · cases h
      rfl
  · cases h
  all_goals
    cases h
    rfl

theorem isReadonly_applyList {m : Mutation} {items vs : List Value}
    (h : (m.applyList σ items vs).fault = some fault) : fault.isReadonly = false := by
  rw [applyList.eq_def] at h
  split at h
  · cases h
  · split_ifs at h with hamong
    · cases h
    · cases h
      rfl
  all_goals
    cases h
    rfl

end Mutation

end SymbolSets
