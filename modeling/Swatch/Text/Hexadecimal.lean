import Swatch.Text.Basic
/-!
Numbers in base sixteen.

* `isHexDigit`, `hexDigitValue`: the digits, of either case.
* `hexValue`: the value of a run of digits.
* `hexPadded`: a number in lower-case digits, with zeros in front up to a width.
-/

namespace Swatch

/-- Whether a character is a hexadecimal digit of either case. -/
def isHexDigit (c : Char) : Bool :=
  c.isDigit || ('a' ≤ c && c ≤ 'f') || ('A' ≤ c && c ≤ 'F')

/-- The value of a hexadecimal digit. -/
def hexDigitValue (c : Char) : Nat :=
  if c.isDigit then c.toNat - '0'.toNat else c.toLower.toNat - 'a'.toNat + 10

/-- The value of a run of hexadecimal digits. -/
def hexValue (s : Text) : Nat := s.foldl (fun n c => 16 * n + hexDigitValue c) 0

/-- A number in hexadecimal with at least the given count of digits. -/
def hexPadded (width n : Nat) : Text :=
  let digits := Nat.toDigits 16 n
  List.replicate (width - digits.length) '0' ++ digits

end Swatch
