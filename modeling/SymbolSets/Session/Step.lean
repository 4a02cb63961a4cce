import SymbolSets.Session.Derivation
import SymbolSets.Session.Mutation
import SymbolSets.Session.Operand
import SymbolSets.Session.Query

/-!
# Sessions

A session is a list of steps on a store. A step reads its operands, sends one request, and may bind
its result to a register. A step that ends in a fault binds nothing, and the next step follows all
the same.

Each kind of request can reach a known part of the store only. Requests for a new set and questions
are answered from the store without changing it, and what is new gets a place of its own; a change
is made to what its receiver holds and written back to that one place.

## Main definitions

* `Request`, `Step`: what a step asks for.
* `Report`: what comes of a step.
* `Step.run`: carrying out a step.
* `Session.run`, `Session.trace`: carrying out a list of steps, for the last store or for all.
-/

namespace SymbolSets

/-- What a value can be asked for. -/
inductive Request
  | mutate (m : Mutation)
  | derive (d : Derivation)
  | query (q : Query)
deriving DecidableEq

/-- What a step does: it makes a set from its operands, or sends a request to the value of a
register. -/
inductive Action
  | make (m : Maker)
  | send (receiver : String) (r : Request)
deriving DecidableEq

/-- A step of a session. -/
structure Step where
  action : Action
  operands : List Operand
  into : Option String

/-- What comes of a step: a result or a fault, and the records of the log. -/
structure Report where
  result : Except Fault Value
  records : List Record

namespace Store

/-- Stores what is new in a product, and answers with its value. -/
def produce (σ : Store) : Except Fault Product → Store × Report
  | .error fault => (σ, ⟨.error fault, []⟩)
  | .ok p => ((σ.enter p).2, ⟨.ok (σ.enter p).1, []⟩)

/-- Binds a result to a register. -/
def bindResult (σ : Store) (into : Option String) : Except Fault Value → Store
  | .ok v => into.elim σ fun name => σ.bind name v
  | .error _ => σ

end Store

/-- The report of a change to the object `receiver`. -/
def Mutation.report {α : Type} (m : Mutation) (receiver : Value) (effect : Effect α) : Report :=
  let answer := if m.answersReceiver then receiver else .nothing
  ⟨effect.fault.elim (.ok answer) .error, effect.records⟩

/-- Carries a change out on the object that a value names. -/
def Mutation.perform (m : Mutation) (σ : Store) (receiver : Value) (vs : List Value) :
    Store × Report :=
  let refused (fault : Fault) : Store × Report := (σ, ⟨.error fault, []⟩)
  match receiver with
  | .runs place =>
    match σ.runs[place]? with
    | some o =>
      let effect := m.applyRuns σ (σ.isFrozen place) o vs
      (σ.setRuns place effect.object, m.report receiver effect)
    | none => refused .unsupported
  | .enumerated place =>
    match σ.elements[place]? with
    | some o =>
      let effect := m.applyElements σ o vs
      (σ.setElements place effect.object, m.report receiver effect)
    | none => refused .unsupported
  | .list place =>
    let effect := m.applyList σ (σ.listAt place) vs
    (σ.setList place effect.object, m.report receiver effect)
  | .vocabulary place =>
    match m, vs with
    | .mark, [v] => (σ.markVocabulary place v, ⟨.ok .nothing, []⟩)
    | _, _ => refused .unsupported
  | .interval _ => refused (if m = .mark then .unchangeable else .unsupported)
  | _ => refused .unsupported

/-- Carries a request out on a value. -/
def Request.perform (r : Request) (σ : Store) (receiver : Value) (vs : List Value) :
    Store × Report :=
  match r with
  | .mutate m => m.perform σ receiver vs
  | .derive d => σ.produce (d.derive σ receiver vs)
  | .query q => σ.produce (q.answer σ receiver vs)

namespace Step

/-- The register that names the receiver, for a step that has one. -/
def receiver? (s : Step) : Option String :=
  match s.action with
  | .make _ => none
  | .send receiver _ => some receiver

/-- Carries the action of a step out on values, without binding its result. -/
def act (s : Step) (σ : Store) (vs : List Value) : Store × Report :=
  match s.action with
  | .make m => σ.produce ((m.make σ vs).map .contents)
  | .send receiver r =>
    match σ.value? receiver with
    | some v => r.perform σ v vs
    | none => (σ, ⟨.error .unknownRegister, []⟩)

/-- Carries the action of a step out. Its operands are read before its receiver is looked for. -/
def perform (s : Step) (σ : Store) : Store × Report :=
  match Operand.values? s.operands σ with
  | .ok (vs, τ) => s.act τ vs
  | .error fault => (σ, ⟨.error fault, []⟩)

/-- Carries a step out. -/
def run (s : Step) (σ : Store) : Store × Report :=
  let (after, report) := s.perform σ
  (after.bindResult s.into report.result, report)

end Step

namespace Session

/-- The store after a list of steps. -/
def run (σ : Store) (steps : List Step) : Store :=
  steps.foldl (fun σ s => (s.run σ).1) σ

/-- The store after each step, and what came of it. -/
def trace (σ : Store) : List Step → List (Store × Report)
  | [] => []
  | s :: rest => s.run σ :: trace (s.run σ).1 rest

end Session

end SymbolSets
