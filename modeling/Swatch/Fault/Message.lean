import Swatch.Decimal.Shortest
import Swatch.Text.Quoted
/-!
What is said about a fault.

* `Fault.messageWith`: the message of each cause.  That of channels that are too large comes with
  the check of the channels of a sample, which is none of this library, and so it is given.
* `Fault.message`: the message without that text.
-/

namespace Swatch

/-- The name of a channel. -/
def Channel.name : Channel → Text
  | .red => "red".toList
  | .green => "green".toList
  | .blue => "blue".toList

/-- The message of a fault, if what is said about channels that are too large is given. -/
def Fault.messageWith (oversized : List Channel → Text) : Fault → Text
  | .notNumber s => "could not convert string to float: ".toList ++ Text.quoted s
  | .notHexadecimal s => "invalid literal for int() with base 16: ".toList ++ Text.quoted s
  | .tooManyDigits count =>
    "Exceeds the limit (4300 digits) for integer string conversion: value has ".toList
      ++ Decimal.digitsOf count
      ++ " digits; use sys.set_int_max_str_digits() to increase the limit".toList
  | .integerOfNaN => "cannot convert float NaN to integer".toList
  | .integerOfInfinity => "cannot convert float infinity to integer".toList
  | .divisionByZero => "float division by zero".toList
  | .quotientTooLarge => "integer division result too large for a float".toList
  | .powerTooLarge => "(34, 'Numerical result out of range')".toList
  | .infiniteAngle => "math domain error".toList
  | .linearNaN => "linear channel is NaN".toList
  | .nonFinite r g b =>
    "non-finite channel in (".toList ++ r.text ++ ", ".toList ++ g.text ++ ", ".toList ++ b.text
      ++ ")".toList
  | .oversized channels => oversized channels
  | .precision => "[<class 'decimal.InvalidOperation'>]".toList
  | .exponentTooLarge => "[<class 'decimal.Overflow'>]".toList
  | .unknownForm name => Text.quoted name ++ " is not a valid ColorNotation".toList
  | .unquotable => "Out of range float values are not JSON compliant".toList

/-- The message of a fault, with nothing for channels that are too large. -/
def Fault.message : Fault → Text := Fault.messageWith fun _ => []

end Swatch
