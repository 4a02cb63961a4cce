import SymbolSets.Text.Basic

/-!
# Quoted text

A text is written between two quotes, single ones unless it holds a single quote and no double one.
The quote in use and the backslash are written after a backslash. Of the code points that do not
print, the tab and the two ends of a line have a letter, and all others are written by number in the
shortest of three widths.
-/

namespace SymbolSets.Text.Quoted

/-- The quote that texts are written in where it can be. -/
def singleQuote : CodePoint := CodePoint.ofChar '\''

/-- The quote for texts that hold the other one. -/
def doubleQuote : CodePoint := CodePoint.ofChar '"'

/-- What stands before a code point that is not written as itself. -/
def backslash : CodePoint := CodePoint.ofChar '\\'

/-- The quote that a text is written in. -/
def delimiter (t : Text) : CodePoint :=
  if t.contains singleQuote && !t.contains doubleQuote then doubleQuote else singleQuote

/-- A code point by its number, in two, four or eight hexadecimal digits. -/
def byNumber (c : CodePoint) : Text :=
  if c.val < 0x100 then backslash :: CodePoint.ofChar 'x' :: hex 2 c.val
  else if c.val < 0x10000 then backslash :: CodePoint.ofChar 'u' :: hex 4 c.val
  else backslash :: CodePoint.ofChar 'U' :: hex 8 c.val

/-- One code point inside the quotes `quote`, where those with `prints` stand for themselves. -/
def escape (prints : CodePoint → Bool) (quote c : CodePoint) : Text :=
  if c = quote ∨ c = backslash then [backslash, c]
  else if c.val = 9 then ofChars ['\\', 't']
  else if c.val = 10 then ofChars ['\\', 'n']
  else if c.val = 13 then ofChars ['\\', 'r']
  else if prints c then [c]
  else byNumber c

/-- The text in quotes, where the code points with `prints` stand for themselves. -/
def encode (prints : CodePoint → Bool) (t : Text) : Text :=
  delimiter t :: t.flatMap (escape prints (delimiter t)) ++ [delimiter t]

/-- Whether a code point is a blank or a visible character of ASCII. -/
def isAsciiGraphic (c : CodePoint) : Bool :=
  32 ≤ c.val && c.val ≤ 126

end SymbolSets.Text.Quoted
