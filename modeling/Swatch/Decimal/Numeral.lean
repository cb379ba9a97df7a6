import Swatch.Decimal.Shortest
import Swatch.Text.Basic
import Swatch.Text.Blank
import Swatch.Text.Digit
import Swatch.Text.Hexadecimal
/-!
Numerals, as they are written in texts, and the numbers that they denote.

A numeral may stand between blanks, use the digits of any script, separate digits by underscores,
and be one of the words for an infinity or a NaN.

* `Numeral.read?`: the numeral that a text holds.
* `Numeral.toBinary64`: the nearest floating-point number.
* `readNumber`, `readPercentage`: the number of a text, or the fault that it is none.
* `readInteger`: the integer of a run of digits, of which there may be 4300.
* `readHexByte`: the integer of two hexadecimal digits.
-/

namespace Swatch

/-- A numeral: a sign with digits and an exponent of ten, or one of the words. -/
inductive Numeral where
  | nan
  | infinity (negative : Bool)
  | decimal (negative : Bool) (digits : Nat) (exponent : Int)
  deriving DecidableEq

/-- A character outside ASCII as a numeral takes it: a blank is a space, a decimal digit is that
digit, and nothing else can be part of a numeral. -/
def numeralChar (c : Char) : Char :=
  if c.toNat < 128 then c
  else if isBlank c then ' '
  else match digitOf? c with
    | some d => Nat.digitChar d
    | none => '?'

/-- The characters of a numeral, without the blanks around it. -/
def numeralText (s : Text) : Text := Text.trim isAsciiBlank (s.map numeralChar)

/-- The value of a run of decimal digits. -/
def digitsValue (s : Text) : Nat := Nat.ofDigitChars 10 s 0

/-- A text without its underscores, each of which must stand between two digits. -/
def joinDigits? (afterDigit : Bool) : Text → Option Text
  | [] => some []
  | '_' :: s =>
    match s with
    | d :: _ => if afterDigit && d.isDigit then joinDigits? false s else none
    | [] => none
  | c :: s => (joinDigits? c.isDigit s).map (c :: ·)

/-- A sign that may stand in front, and what follows it. -/
def splitSign : Text → Bool × Text
  | '-' :: s => (true, s)
  | '+' :: s => (false, s)
  | s => (false, s)

namespace Numeral

/-- The exponent part that may end a numeral. -/
def exponent? : Text → Option Int
  | [] => some 0
  | c :: s =>
    if c = 'e' || c = 'E' then
      let (negative, digits) := splitSign s
      if digits ≠ [] && digits.all Char.isDigit then
        let n := digitsValue digits
        some (if negative then -n else n)
      else none
    else none

/-- Digits with a point and an exponent, without a sign. -/
def decimal? (negative : Bool) (s : Text) : Option Numeral :=
  let (whole, rest) := Text.span Char.isDigit s
  let (fraction, rest) := match rest with
    | '.' :: rest => Text.span Char.isDigit rest
    | rest => ([], rest)
  if whole ++ fraction = [] then none
  else (exponent? rest).map fun e =>
    .decimal negative (digitsValue (whole ++ fraction)) (e - fraction.length)

/-- The numeral that a text holds. -/
def read? (s : Text) : Option Numeral := do
  let (negative, s) := splitSign (← joinDigits? false (numeralText s))
  let word := s.map Char.toLower
  if word = "inf".toList || word = "infinity".toList then some (.infinity negative)
  else if word = "nan".toList then some .nan
  else decimal? negative s

/-- The floating-point number nearest to a numeral.  A leading digit too far from the point decides
the number before any power of ten is computed. -/
def toBinary64 : Numeral → Binary64
  | .nan => .nan
  | .infinity negative => .infinity negative
  | .decimal negative digits exponent =>
    let lead := exponent + (Decimal.digitsOf digits).length
    if digits = 0 || lead < -330 then .zero negative
    else if 310 < lead then .infinity negative
    else .ofScaled negative digits exponent

end Numeral

/-- The number of a text. -/
def readNumber (s : Text) : Except Fault Binary64 :=
  match Numeral.read? s with
  | some numeral => .ok numeral.toBinary64
  | none => .error (.notNumber s)

/-- The number of a text in hundredths, whatever percent signs it holds. -/
def readPercentage (s : Text) : Except Fault Binary64 := do
  return (← readNumber (s.filter (· ≠ '%'))) / 100

/-- The most digits that the text of an integer may have. -/
def maxIntegerDigits : Nat := 4300

/-- The integer of a run of decimal digits with a sign that may stand in front. -/
def readInteger (s : Text) : Except Fault Int :=
  let (negative, digits) := splitSign s
  if maxIntegerDigits < digits.length then .error (.tooManyDigits digits.length)
  else .ok (if negative then -(digitsValue digits : Int) else digitsValue digits)

/-- The integer of a text of two characters in base sixteen.  As in other numerals, one of the two
may be a sign or a blank. -/
def readHexByte (s : Text) : Except Fault Int :=
  let (negative, digits) := splitSign (numeralText s)
  if digits ≠ [] && digits.all isHexDigit then
    let n := hexValue digits
    .ok (if negative then -(n : Int) else n)
  else .error (.notHexadecimal s)

end Swatch
