import Swatch.Binary64.Elementary
import Swatch.Binary64.Rounding
/-!
The companding of sRGB: between a channel in bytes and the light it stands for.

* `linearOfByte`: the linear light of a channel.
* `byteOfLinear`: the byte of a channel of linear light, clamped to the gamut first.
-/

namespace Swatch

variable [Elementary]

/-- The linear light of a channel in bytes: a straight line near black, a power above. -/
def linearOfByte (c : Binary64) : Except Fault Binary64 :=
  let v := c / 255
  if v ≤ 0.04045 then .ok (v / 12.92)
  else
    let base := (v + 0.055) / 1.055
    let power := Elementary.pow base 2.4
    if base.isFinite && !power.isFinite then .error .powerTooLarge else .ok power

/-- The byte of a channel of linear light.  It is the light that is held between zero and one. -/
def byteOfLinear (c : Binary64) : Except Fault Int :=
  if c.isNaN then .error .linearNaN
  else
    let v := c.clamp 0 1
    let s := if v ≤ 0.0031308 then 12.92 * v else 1.055 * Elementary.pow v (1 / 2.4) - 0.055
    (s * 255).roundHalfUp

end Swatch
