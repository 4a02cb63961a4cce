import SymbolSets.Symbols
import SymbolSets.Unicode.Uppercase
import SymbolSets.Value.Basic

/-!
# Names of token types

A vocabulary lists up to three names for each token type: the text of the token in quotes, the name
of its rule, and a name for display. Each list is indexed by the token type; its entries may be
missing, and the lists may differ in length. Names are texts, as a rule, but an entry may be any
value: nothing stands for a missing name, and every value that does not count as true is passed over
where a name is looked for.

## Main definitions

* `Vocabulary`, `Vocabulary.highest`: the lists, and the highest token type that they reach.
* `Vocabulary.literalName`, `Vocabulary.symbolicName`, `Vocabulary.displayName`: the names of a
  token type.
* `Vocabulary.Role`, `Vocabulary.ofRoles`: the vocabulary of a single list of names, sorted out by
  what they name.
* `Vocabulary.textRole`: what a text names, by its first code point.
-/

namespace SymbolSets

/-- Up to three names for each token type from `0` on. -/
structure Vocabulary where
  literal : List Value
  symbolic : List Value
  display : List Value

namespace Vocabulary

/-- The vocabulary without names. -/
def empty : Vocabulary :=
  ⟨[], [], []⟩

/-- The highest token type that one of the lists reaches, `-1` when they are all empty. -/
def highest (v : Vocabulary) : Int :=
  max v.display.length (max v.literal.length v.symbolic.length) - 1

/-- The entry of a list for a token type. There is none for negative types. -/
def listed (names : List Value) (symbol : Int) : Value :=
  if symbol < 0 then .nothing else names[symbol.toNat]?.getD .nothing

/-- The text of the token in quotes. -/
def literalName (v : Vocabulary) (symbol : Int) : Value :=
  listed v.literal symbol

/-- The name of the end of the input. -/
def endName : Text :=
  Text.ofChars ['E', 'O', 'F']

/-- The name of the rule for the token. The end of the input always has one. -/
def symbolicName (v : Vocabulary) (symbol : Int) : Value :=
  if symbol = endOfInput then .text endName else listed v.symbolic symbol

/-- The first name that counts as true: the one for display, the text of the token, the name of its
rule. A token type without any is shown as its number. -/
def displayName (isTrue : Value → Bool) (v : Vocabulary) (symbol : Int) : Value :=
  let names := [listed v.display symbol, v.literalName symbol, v.symbolicName symbol]
  (names.find? isTrue).getD (.text (Text.ofInt symbol))

/-- What a name in a single list of names is the name of: the text of a token, a rule, or neither,
so that it is only displayed. -/
inductive Role
  | literal
  | symbolic
  | display
deriving DecidableEq

/-- The entry of a list that is for names of the role `wanted` only. -/
def entryFor (wanted : Role) (name : Value × Role) : Value :=
  if name.2 = wanted then name.1 else .nothing

/-- The vocabulary of one list of names. Every name is displayed, whatever else it is. -/
def ofRoles (names : List (Value × Role)) : Vocabulary where
  literal := names.map (entryFor .literal)
  symbolic := names.map (entryFor .symbolic)
  display := names.map Prod.fst

/-- The quote that the text of a token starts with. -/
def quote : CodePoint :=
  CodePoint.ofChar '\''

/-- What a text names: the text of a token if it starts with a single quote, and a rule if it starts
with an uppercase letter. -/
def textRole : Text → Role
  | [] => .display
  | c :: _ =>
    if c = quote then .literal else if Unicode.isUppercase c then .symbolic else .display

end Vocabulary

end SymbolSets
