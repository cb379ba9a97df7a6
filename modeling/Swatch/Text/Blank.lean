/-!
Blank characters: the white space of all scripts and the separators among the control characters.

* `isBlank`: the class that separates the parts of a colour and is trimmed around one.
* `isAsciiBlank`: the smaller class that may stand around a numeral.
-/

namespace Swatch

/-- Whether a character is blank. -/
def isBlank (c : Char) : Bool :=
  let n := c.toNat
  (0x9 ≤ n && n ≤ 0xd) || (0x1c ≤ n && n ≤ 0x20) || n == 0x85 || n == 0xa0 || n == 0x1680
    || (0x2000 ≤ n && n ≤ 0x200a) || n == 0x2028 || n == 0x2029 || n == 0x202f || n == 0x205f
    || n == 0x3000

/-- Whether a character is a space, a tabulator or a line or page break. -/
def isAsciiBlank (c : Char) : Bool := (0x9 ≤ c.toNat && c.toNat ≤ 0xd) || c == ' '

end Swatch
