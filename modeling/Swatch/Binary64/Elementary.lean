import Swatch.Binary64.Angle
import Swatch.Binary64.Power
/-!
The elementary functions on the way between colour spaces.

Sums, products, quotients and square roots have one correct result.  The functions here have results
that are good enough, and libraries do not agree on the last bit.  So the colours take them as they
come.

* `Elementary`: a choice of the functions.
* `Elementary.computed`: the functions of this library.
-/

namespace Swatch

/-- A choice of elementary functions. -/
class Elementary where
  /-- The cube root. -/
  cbrt : Binary64 → Binary64
  /-- The cosine. -/
  cos : Binary64 → Binary64
  /-- The sine. -/
  sin : Binary64 → Binary64
  /-- The angle from the first axis to the point whose second coordinate is `y` and whose first is
  `x`. -/
  atan2 : (y x : Binary64) → Binary64
  /-- The power of a base with an exponent. -/
  pow : (base exponent : Binary64) → Binary64

/-- The elementary functions by series and roots in fixed point. -/
instance Elementary.computed : Elementary where
  cbrt := Binary64.cbrt
  cos := Binary64.cos
  sin := Binary64.sin
  atan2 := Binary64.atan2
  pow := Binary64.pow

end Swatch
