import SymbolSets.Enumerated
import SymbolSets.Runs.Spelled
import SymbolSets.Vocabulary

/-!
# The store

Sets, lists and vocabularies that a session works on are kept in a store, each kind in a row of its
own. An object keeps its place in its row for good, and no other object ever comes there. Registers
name values, and several of them may name the same object.

A set that is kept by runs is frozen by a mark: any value can be the mark, and the set is frozen
while the mark counts as true. The other sets and the vocabularies can be marked too, without
effect, and have no mark before.

## Main definitions

* `StoredRuns`, `StoredElements`, `StoredVocabulary`: the objects that can be marked.
* `Store`, `Store.initial`: all objects and registers, and those that every session starts with.
* `Store.addRuns`, `Store.addElements`, `Store.addList`, `Store.addFailing`,
  `Store.addVocabulary`: a new object.
* `Store.setRuns`, `Store.setElements`, `Store.setList`, `Store.markVocabulary`: a changed object.
* `Store.runsAt`, `Store.spelledAt`, `Store.elementsAt`, `Store.listAt`, `Store.vocabularyAt`: what
  an object holds.
* `Store.bind`, `Store.value?`: the registers.
-/

namespace SymbolSets

/-- A set kept by runs, with the value that was last assigned to it as its mark. -/
structure StoredRuns extends SpelledRuns where
  mark : Value

/-- A set kept one by one, with its mark if it was given one. -/
structure StoredElements where
  elements : Enumerated
  mark : Option Value

/-- A vocabulary, with its mark if it was given one. -/
structure StoredVocabulary where
  vocabulary : Vocabulary
  mark : Option Value

/-- All objects by place, and the registers. -/
structure Store where
  runs : Array StoredRuns
  elements : Array StoredElements
  lists : Array (List Value)
  vocabularies : Array StoredVocabulary
  registers : List (String × Value)

namespace Store

/-! ## The objects of every session -/

/-- The set that is empty for good. -/
def emptySet : StoredRuns :=
  ⟨.empty, .bool true⟩

/-- The set that holds all character codes for good. -/
def characterSet : StoredRuns :=
  ⟨.plain [allCharacters], .bool true⟩

/-- The place of the set of all character codes. -/
def characterPlace : Nat := 1

/-- The place of the vocabulary without names. -/
def emptyVocabularyPlace : Nat := 0

/-- The registers of the two sets that every store holds. -/
def predefined : List (String × Value) :=
  [("EMPTY_SET", .runs 0), ("COMPLETE_CHAR_SET", .runs characterPlace)]

/-- The store of the two predefined sets and the vocabulary without names. -/
def initial : Store where
  runs := #[emptySet, characterSet]
  elements := #[]
  lists := #[]
  vocabularies := #[⟨.empty, none⟩]
  registers := predefined

/-! ## New objects -/

/-- Stores a set kept by runs that is not frozen, at a place of its own. -/
def addRuns (σ : Store) (xs : SpelledRuns) : Value × Store :=
  (.runs σ.runs.size, { σ with runs := σ.runs.push ⟨xs, .bool false⟩ })

/-- Stores a set kept one by one, at a place of its own. -/
def addElements (σ : Store) (es : Enumerated) : Value × Store :=
  (.enumerated σ.elements.size, { σ with elements := σ.elements.push ⟨es, none⟩ })

/-- Stores a list, at a place of its own. -/
def addList (σ : Store) (vs : List Value) : Value × Store :=
  (.list σ.lists.size, { σ with lists := σ.lists.push vs })

/-- Stores a collection that breaks off, at a place of its own among the lists. -/
def addFailing (σ : Store) (vs : List Value) : Value × Store :=
  (.failing σ.lists.size, { σ with lists := σ.lists.push vs })

/-- Stores a vocabulary, at a place of its own. -/
def addVocabulary (σ : Store) (v : Vocabulary) : Value × Store :=
  (.vocabulary σ.vocabularies.size, { σ with vocabularies := σ.vocabularies.push ⟨v, none⟩ })

/-! ## What objects hold -/

/-- The runs of the set at a place. -/
def runsAt (σ : Store) (place : Nat) : Runs :=
  (σ.runs[place]?.map fun o => o.runs).getD []

/-- The set kept by runs at a place, as it is written. -/
def spelledAt (σ : Store) (place : Nat) : SpelledRuns :=
  (σ.runs[place]?.map StoredRuns.toSpelledRuns).getD .empty

/-- The elements of the set at a place. -/
def elementsAt (σ : Store) (place : Nat) : Enumerated :=
  (σ.elements[place]?.map StoredElements.elements).getD []

/-- The items of the list at a place, or those of the collection there that breaks off. -/
def listAt (σ : Store) (place : Nat) : List Value :=
  σ.lists[place]?.getD []

/-- The vocabulary at a place. -/
def vocabularyAt (σ : Store) (place : Nat) : Vocabulary :=
  (σ.vocabularies[place]?.map StoredVocabulary.vocabulary).getD .empty

/-! ## Changed objects -/

/-- Replaces a set kept by runs. -/
def setRuns (σ : Store) (place : Nat) (o : StoredRuns) : Store :=
  { σ with runs := σ.runs.setIfInBounds place o }

/-- Replaces a set kept one by one. -/
def setElements (σ : Store) (place : Nat) (o : StoredElements) : Store :=
  { σ with elements := σ.elements.setIfInBounds place o }

/-- Replaces a list. -/
def setList (σ : Store) (place : Nat) (vs : List Value) : Store :=
  { σ with lists := σ.lists.setIfInBounds place vs }

/-- Marks a vocabulary. -/
def markVocabulary (σ : Store) (place : Nat) (mark : Value) : Store :=
  { σ with vocabularies := σ.vocabularies.modify place fun o => { o with mark := some mark } }

/-! ## Registers -/

/-- A register bound in a row of registers, in which it keeps its place if it has one. -/
def bindIn (name : String) (v : Value) : List (String × Value) → List (String × Value)
  | [] => [(name, v)]
  | r :: rs => if r.1 = name then (name, v) :: rs else r :: bindIn name v rs

/-- Binds a register. -/
def bind (σ : Store) (name : String) (v : Value) : Store :=
  { σ with registers := bindIn name v σ.registers }

/-- The value of a register. -/
def value? (σ : Store) (name : String) : Option Value :=
  σ.registers.lookup name

/-- The registers that were bound in the session, in the order in which they first were. -/
def bound (σ : Store) : List (String × Value) :=
  σ.registers.filter fun r => !(predefined.map Prod.fst).contains r.1

end Store

end SymbolSets
