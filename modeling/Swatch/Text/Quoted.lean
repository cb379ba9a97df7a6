import Swatch.Text.Hexadecimal
import Swatch.Text.Printable
/-!
Texts in quotes, as messages show them.

* `Text.quoted`: the text between single quotes, or between double quotes if it holds a single
  quote and no double one.  The quote in use and the backslash are escaped, line and tabulator
  characters have names, and any other character that cannot be printed is given by its number.
-/

namespace Swatch

/-- A character between quotes. -/
def quotedChar (quote c : Char) : Text :=
  if c = quote || c = '\\' then ['\\', c]
  else if c = '\n' then ['\\', 'n']
  else if c = '\r' then ['\\', 'r']
  else if c = '\t' then ['\\', 't']
  else if isPrintable c then [c]
  else if c.toNat < 0x100 then '\\' :: 'x' :: hexPadded 2 c.toNat
  else if c.toNat < 0x10000 then '\\' :: 'u' :: hexPadded 4 c.toNat
  else '\\' :: 'U' :: hexPadded 8 c.toNat

/-- The quote that surrounds a text. -/
def quoteFor (s : Text) : Char := if s.contains '\'' && !s.contains '"' then '"' else '\''

/-- A text between quotes. -/
def Text.quoted (s : Text) : Text :=
  quoteFor s :: s.flatMap (quotedChar (quoteFor s)) ++ [quoteFor s]

end Swatch
