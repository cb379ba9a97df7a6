import Swatch.Binary64.Basic
import Swatch.Fault
/-!
An sRGB colour, as read from a text.

* `Sample`: three channels, in bytes, and an alpha that may be absent.
* `Sample.clamped`: the channels held between 0 and 255, if they are finite.
* `Sample.isTranslucent`: whether there is an alpha below one.
-/

namespace Swatch

/-- An sRGB colour.  The channels are in bytes, and may lie outside 0 to 255 until clamped. -/
structure Sample where
  red : Binary64
  green : Binary64
  blue : Binary64
  alpha : Option Binary64 := none
  deriving DecidableEq

namespace Sample

/-- The colour with its channels held between 0 and 255.  They have to be finite. -/
def clamped (s : Sample) : Except Fault Sample :=
  if s.red.isFinite && s.green.isFinite && s.blue.isFinite then
    .ok { s with
      red := s.red.clamp 0 255
      green := s.green.clamp 0 255
      blue := s.blue.clamp 0 255 }
  else .error (.nonFinite s.red s.green s.blue)

/-- Whether an alpha is given and below one. -/
def isTranslucent (s : Sample) : Bool :=
  match s.alpha with
  | some alpha => alpha < 1
  | none => false

/-- The colour whose channels are integers, unless one is too large for a floating-point number. -/
def ofIntegers (red green blue : Int) (alpha : Option Binary64) : Except Fault Sample :=
  match Binary64.ofInt? red, Binary64.ofInt? green, Binary64.ofInt? blue with
  | some r, some g, some b => .ok ⟨r, g, b, alpha⟩
  | r, g, b =>
    let tooLarge := [(Channel.red, r), (.green, g), (.blue, b)].filter (·.2.isNone)
    .error (.oversized (tooLarge.map (·.1)))

end Sample

end Swatch
