import Swatch.Binary64.Basic
import Swatch.Text.Basic
/-!
Why a colour cannot be read, converted or written, or a request not be answered.

* `Fault`: the causes.
* `Channel`: the three channels of a colour, which some faults name.
-/

namespace Swatch

/-- A channel of an sRGB colour. -/
inductive Channel where
  | red
  | green
  | blue
  deriving DecidableEq

/-- The causes of failure. -/
inductive Fault where
  /-- A text that should be a number is none. -/
  | notNumber (text : Text)
  /-- A text that should be a hexadecimal number is none. -/
  | notHexadecimal (text : Text)
  /-- An integer is written with more digits than an integer may have. -/
  | tooManyDigits (count : Nat)
  /-- A NaN has no integer part. -/
  | integerOfNaN
  /-- An infinity has no integer part. -/
  | integerOfInfinity
  /-- A divisor is zero. -/
  | divisionByZero
  /-- The quotient of two integers is too large for a floating-point number. -/
  | quotientTooLarge
  /-- A power is too large for a floating-point number. -/
  | powerTooLarge
  /-- An angle is infinite. -/
  | infiniteAngle
  /-- A channel of linear light is a NaN. -/
  | linearNaN
  /-- A channel is infinite or a NaN. -/
  | nonFinite (red green blue : Binary64)
  /-- The integers of these channels are too large for a floating-point number. -/
  | oversized (channels : List Channel)
  /-- A rounded number needs more digits than a decimal number may have. -/
  | precision
  /-- A number is to be rounded to a power of ten that a decimal number cannot hold. -/
  | exponentTooLarge
  /-- A name is none of the names of the four forms. -/
  | unknownForm (name : Text)
  /-- An answer would have to quote a NaN or an infinity, which no answer may hold. -/
  | unquotable
  deriving DecidableEq

end Swatch
