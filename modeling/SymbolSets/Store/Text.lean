import SymbolSets.Runs.Text
import SymbolSets.Store.Reading

/-!
# Showing values

Every value has a description, which tells values of different kinds apart, and a text for people,
which is shorter where no such care is needed. Sets that are kept one by one and vocabularies are
described by their kind alone.

## Main definitions

* `SpelledRuns.description`: a set kept by runs, with its kind and whether it is frozen.
* `Store.describe`, `Store.shown`: the description and the text of a value.
-/

namespace SymbolSets

/-- The set in quotes, and whether it is frozen. What is in the quotes holds nothing that has to be
escaped. -/
def SpelledRuns.description (xs : SpelledRuns) (frozen : Bool) : Text :=
  Kind.runs.name ++ Text.ofString "('" ++ xs.text .numbers ++ Text.ofString "'" ++
    Text.ofString (if frozen then ", readonly=True)" else ")")

namespace Store

variable (σ : Store)

/-- The description of the set kept by runs at a place. -/
def describeRuns (place : Nat) : Text :=
  match σ.runs[place]? with
  | some o => o.description (σ.isFrozen place o)
  | none => []

/-- The descriptions of some values between brackets. -/
def listText (ts : List Text) : Text :=
  Text.ofChars ['['] ++ Text.joinComma ts ++ Text.ofChars [']']

/-- The descriptions of some values between parentheses. A comma follows a single one. -/
def rowText (ts : List Text) : Text :=
  let comma := if ts.length = 1 then Text.ofChars [','] else []
  Text.ofChars ['('] ++ Text.joinComma ts ++ comma ++ Text.ofChars [')']

/-- The description of a value in which lists lie inside each other no deeper than `depth`. -/
def describeWithin : (depth : Nat) → Value → Text
  | depth + 1, .list place => listText ((σ.listAt place).map (describeWithin depth))
  | 0, .list _ => listText []
  | _, .runs place => σ.describeRuns place
  | _, .nothing => Value.nothingText
  | _, .bool b => Text.ofBool b
  | _, .int n => Text.ofInt n
  | _, .double x => x.text
  | _, .text t => Value.quotedText t
  | _, .bytes bs => Value.quotedBytes bs
  | _, .progression p => p.text
  | _, .interval x => x.recordText
  | _, .intervals xs => rowText (xs.map Span.recordText)
  | _, .enumerated _ => Text.ofString "<" ++ Kind.enumerated.name ++ Text.ofString ">"
  | _, .failing _ => Text.ofString "<" ++ Kind.failing.name ++ Text.ofString ">"
  | _, .vocabulary _ => Value.vocabularyText

/-- The description of a value. -/
def describe (v : Value) : Text :=
  σ.describeWithin σ.lists.size v

/-- A value as it is shown to people. -/
def shown : Value → Text
  | .text t => t
  | .interval x => x.text
  | .runs place => (σ.spelledAt place).text .numbers
  | v => σ.describe v

end Store

end SymbolSets
