import SymbolSets.Fault
import SymbolSets.Runs.Spelled

/-!
# Showing a set

A set is shown run by run, as numbers or as characters between single quotes, or element by element
with names. Only the numbers tell how a bound is written. The items stand in braces unless the set
has a single element; the empty set is a pair of braces. The two reserved token types have names of
their own wherever they stand alone.

## Main definitions

* `Runs.Style`: numbers or characters.
* `Runs.runText`, `SpelledRuns.text`: a run as it is shown, and the whole.
* `Runs.namedItems?`, `Runs.namedText?`: the elements by their names, and the whole.
* `Runs.allReserved`: whether no element has to be asked for its name.
-/

namespace SymbolSets

namespace Runs

/-- How the bounds of runs are shown. -/
inductive Style
  | numbers
  | characters
deriving DecidableEq

/-- The name of a reserved token type. -/
def reservedName? (v : Int) : Option Text :=
  if v = endOfInput then some (Text.ofChars ['<', 'E', 'O', 'F', '>'])
  else if v = epsilon then some (Text.ofChars ['<', 'E', 'P', 'S', 'I', 'L', 'O', 'N', '>'])
  else none

/-- The character with code `v` between single quotes, whatever it is, and the number of `v` when
it is no character code. -/
def characterText (v : Int) : Text :=
  match CodePoint.ofInt? v with
  | some c => [CodePoint.ofChar '\'', c, CodePoint.ofChar '\'']
  | none => Text.ofInt v

/-- A bound as it is shown. -/
def Style.boundText : Style → Bound → Text
  | .numbers, b => b.text
  | .characters, b => characterText b.toInt

/-- A run as it is shown. -/
def runText (style : Style) (x : Span) : Text :=
  if x.lo.toInt = x.hi.toInt then (reservedName? x.lo.toInt).getD (style.boundText x.lo)
  else style.boundText x.lo ++ Span.dots ++ style.boundText x.hi

/-- The elements as they are shown by their names. The name of an element may be refused, but those
of the reserved token types are not asked for. -/
def namedItems? (name? : Int → Except Fault Text) (xs : Runs) : Except Fault (List Text) :=
  xs.elements.mapM fun e => (reservedName? e).elim (name? e) .ok

/-- Whether all elements are reserved token types. -/
def allReserved (xs : Runs) : Bool :=
  xs.all fun x => reserved.Covers x

/-- The items of a set in a row, in braces if the set has more than one element. -/
def enclose (xs : Runs) (items : List Text) : Text :=
  let row := Text.joinComma items
  if 1 < xs.size then Text.ofChars ['\x7b'] ++ row ++ Text.ofChars ['\x7d'] else row

/-- The empty set as it is shown. -/
def emptyText : Text :=
  Text.ofChars ['\x7b', '\x7d']

/-- The set by the names of its elements. -/
def namedText? (name? : Int → Except Fault Text) (xs : Runs) : Except Fault Text :=
  if xs.isEmpty then .ok emptyText else (xs.namedItems? name?).map xs.enclose

end Runs

/-- The set in the given style. -/
def SpelledRuns.text (style : Runs.Style) (xs : SpelledRuns) : Text :=
  if xs.runs.isEmpty then Runs.emptyText else xs.runs.enclose (xs.spans.map (Runs.runText style))

end SymbolSets
