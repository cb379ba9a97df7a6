import Swatch.Binary64.Arithmetic
import Swatch.Fault
/-!
Rounding a floating-point number to an integer, and dividing where zero is refused.

* `Binary64.roundHalfUp`: the nearest integer, a half going up.
* `Binary64.quotient`: division that fails at a divisor of zero.
-/

namespace Swatch.Binary64

/-- The nearest integer, a half going up.  A NaN and an infinity have none. -/
def roundHalfUp : Binary64 → Except Fault Int
  | .nan => .error .integerOfNaN
  | .infinity _ => .error .integerOfInfinity
  | .finite negative units h =>
    let floor := floorUnits negative units
    .ok (if 0.5 ≤ .finite negative units h - ofInt floor then floor + 1 else floor)

/-- The quotient, where a divisor of zero is a fault. -/
def quotient (x y : Binary64) : Except Fault Binary64 :=
  if y == 0 then .error .divisionByZero else .ok (x / y)

end Swatch.Binary64
