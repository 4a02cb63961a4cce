import SymbolSets.Store.Reading
import SymbolSets.Text.Capitals

/-!
# Operands

An operand is written in a step of a session and stands for a value: itself, a value made of others,
or what a register holds at that moment. A set, a list or a vocabulary that is written out is a new
object every time it is read, so reading an operand may add to the store.

## Main definitions

* `Operand`: what may be written.
* `Operand.value?`, `Operand.values?`: what operands stand for, and the store after they are read.
* `Store.vocabulary?`, `Store.classify?`: vocabularies from lists of names.
-/

namespace SymbolSets

/-- What may be written as an operand. -/
inductive Operand
  | nothing
  | bool (b : Bool)
  | int (n : Int)
  | double (x : Double)
  | text (t : Text)
  | bytes (ns : List Int)
  | progression (start stop step : Int)
  | list (items : List Operand)
  /-- A collection that breaks off in a fault of its own when it has given its items. -/
  | failing (items : List Operand)
  | interval (lo hi : Operand)
  /-- A set kept by runs, given by intervals. -/
  | runs (intervals : List Operand)
  /-- A set kept one by one, given by a collection of its elements. -/
  | enumerated (elements : Operand)
  | register (name : String)
  /-- A vocabulary given by its three lists of names. -/
  | vocabulary (literal symbolic display : Operand)
  /-- A vocabulary given by one list of names to be sorted out. -/
  | classified (names : Operand)

namespace Store

/-- What a list names that stands where a name is expected. Its first item decides, which has to be
a text or bytes and is taken as a whole. -/
def itemRole? : Value → Except Fault Vocabulary.Role
  | .text t =>
    .ok (if t = [Vocabulary.quote] then .literal
      else if t.isInCapitals then .symbolic else .display)
  | .bytes bs => .ok (if areCapitals bs then .symbolic else .display)
  | _ => .error .unsupported

/-- What a name in a list of names is the name of. What does not count as true names nothing, and
everything else has to have a first item that a name can start with. -/
def role? (σ : Store) (name : Value) : Except Fault Vocabulary.Role :=
  match name with
  | .text t => .ok (Vocabulary.textRole t)
  | v =>
    if σ.isTrue v then
      match v with
      | .list place => itemRole? ((σ.listAt place).headD .nothing)
      | .bytes _ | .progression _ | .intervals _ => .error .unsupported
      | _ => .error .notText
    else .ok .display

/-- A new vocabulary of three lists of names. -/
def vocabulary? (σ : Store) (literal symbolic display : Value) :
    Except Fault (Value × Store) := do
  let l ← σ.listed? literal
  let s ← σ.listed? symbolic
  let d ← σ.listed? display
  return σ.addVocabulary ⟨l, s, d⟩

/-- A new vocabulary of one list of names. A value that does not count as true stands for the
vocabulary without names, which is not a new one. -/
def classify? (σ : Store) (names : Value) : Except Fault (Value × Store) := do
  if σ.isTrue names then
    let items ← σ.listed? names
    let roles ← items.mapM σ.role?
    return σ.addVocabulary (.ofRoles (items.zip roles))
  else
    return (.vocabulary emptyVocabularyPlace, σ)

end Store

namespace Operand

/-- The progression with the given bounds. It must not stay where it starts. -/
def progression? (start stop step : Int) : Except Fault Progression :=
  if step = 0 then .error .zeroStep else .ok ⟨start, stop, step⟩

/-- Integers as bytes. -/
def bytes? (ns : List Int) : Except Fault (List UInt8) :=
  if ns.all fun n => 0 ≤ n && n < 256 then .ok (ns.map fun n => n.toNat.toUInt8)
  else .error .notBytes

mutual

/-- The value that an operand stands for. The parts of an operand are read from left to right, and
the first fault is the fault of the whole. -/
def value? : Operand → Store → Except Fault (Value × Store)
  | .nothing, σ => .ok (.nothing, σ)
  | .bool b, σ => .ok (.bool b, σ)
  | .int n, σ => .ok (.int n, σ)
  | .double x, σ => .ok (.double x, σ)
  | .text t, σ => .ok (.text t, σ)
  | .bytes ns, σ => (bytes? ns).map fun bs => (.bytes bs, σ)
  | .progression start stop step, σ =>
    (progression? start stop step).map fun p => (.progression p, σ)
  | .list items, σ => do
    let (vs, σ) ← values? items σ
    return σ.addList vs
  | .failing items, σ => do
    let (vs, σ) ← values? items σ
    return σ.addFailing vs
  | .interval lo hi, σ => do
    let (a, σ) ← value? lo σ
    let (b, σ) ← value? hi σ
    let x ← Value.interval? a b
    return (.interval x, σ)
  | .runs items, σ => do
    let (vs, σ) ← values? items σ
    let xs ← Value.allIntervals? vs
    return σ.addRuns (.ofSpans xs)
  | .enumerated elements, σ => do
    let (v, σ) ← value? elements σ
    let es ← σ.elements? v
    return σ.addElements (Enumerated.ofList σ.runsAt es)
  | .register name, σ =>
    match σ.value? name with
    | some v => .ok (v, σ)
    | none => .error .unknownRegister
  | .vocabulary literal symbolic display, σ => do
    let (l, σ) ← value? literal σ
    let (s, σ) ← value? symbolic σ
    let (d, σ) ← value? display σ
    σ.vocabulary? l s d
  | .classified names, σ => do
    let (v, σ) ← value? names σ
    σ.classify? v

/-- The values of several operands, from left to right. -/
def values? : List Operand → Store → Except Fault (List Value × Store)
  | [], σ => .ok ([], σ)
  | o :: os, σ => do
    let (v, σ) ← value? o σ
    let (vs, σ) ← values? os σ
    return (v :: vs, σ)

end

end Operand

end SymbolSets
