import Swatch.Binary64.Rounding
import Swatch.Color.Sample
/-!
Hue, saturation and lightness.

* `Hue`: a hue in degrees, an integer of any size or a floating-point number.
* `Hue.toBytes`: the bytes of a hue with a saturation and a lightness between zero and one.
* `Hsl.ofSample`: the hue in degrees, the saturation and the lightness in hundredths.
-/

namespace Swatch

/-- A hue in degrees. -/
inductive Hue where
  | whole (degrees : Int)
  | real (degrees : Binary64)
  deriving DecidableEq

namespace Hue

/-- The sixth of the colour wheel in which a hue lies, if it lies on the wheel. -/
def sextant? : Hue → Option Nat
  | .whole h => if 0 ≤ h ∧ h < 360 then some (h.toNat / 60) else none
  | .real h =>
    (List.range 6).find? fun k =>
      Binary64.ofInt (60 * k) ≤ h && h < Binary64.ofInt (60 * k + 60)

/-- A hue in sixths of the wheel.  The quotient of an integer is rounded once, and must not be too
large. -/
def sixths : Hue → Except Fault Binary64
  | .whole h =>
    match Binary64.round (h < 0) (h.natAbs * unitsPerOne) 60 with
    | .infinity _ => .error .quotientTooLarge
    | x => .ok x
  | .real h => .ok (h / 60)

/-- The bytes of a colour.  Chroma is how far the largest channel stands above the smallest; the
middle channel rises and falls within a sextant.  A hue off the wheel is grey. -/
def toBytes (h : Hue) (saturation lightness : Binary64) : Except Fault (Int × Int × Int) := do
  let chroma := (1 - (2 * lightness - 1).abs) * saturation
  let middle := chroma * (1 - ((← h.sixths).remainderTwo - 1).abs)
  let base := lightness - chroma / 2
  let (r, g, b) : Binary64 × Binary64 × Binary64 :=
    match h.sextant? with
    | some 0 => (chroma, middle, 0)
    | some 1 => (middle, chroma, 0)
    | some 2 => (0, chroma, middle)
    | some 3 => (0, middle, chroma)
    | some 4 => (middle, 0, chroma)
    | some 5 => (chroma, 0, middle)
    | _ => (0, 0, 0)
  let red ← ((r + base) * 255).roundHalfUp
  let green ← ((g + base) * 255).roundHalfUp
  let blue ← ((b + base) * 255).roundHalfUp
  return (red, green, blue)

end Hue

/-- A colour by hue in degrees, saturation and lightness in hundredths. -/
structure Hsl where
  hue : Binary64
  saturation : Binary64
  lightness : Binary64
  deriving DecidableEq

/-- The hue in sixths of the wheel, from the channel that is largest: the difference of the other
two, relative to the spread, off the middle of that channel's pair of sextants. -/
def hueSixths (r g b largest spread : Binary64) : Except Fault Binary64 := do
  if largest == r then
    return (← (g - b).quotient spread) + (if g < b then 6 else 0)
  else if largest == g then
    return (← (b - r).quotient spread) + 2
  else
    return (← (r - g).quotient spread) + 4

/-- Hue, saturation and lightness of a colour.  A grey has neither hue nor saturation. -/
def Hsl.ofSample (s : Sample) : Except Fault Hsl := do
  let r := s.red / 255
  let g := s.green / 255
  let b := s.blue / 255
  let largest := (r.max g).max b
  let smallest := (r.min g).min b
  let lightness := (largest + smallest) / 2
  if largest == smallest then
    return ⟨0 * 360, 0 * 100, lightness * 100⟩
  else
    let spread := largest - smallest
    let saturation ←
      if 0.5 < lightness then spread.quotient (2 - largest - smallest)
      else spread.quotient (largest + smallest)
    let hue := (← hueSixths r g b largest spread) / 6
    return ⟨hue * 360, saturation * 100, lightness * 100⟩

end Swatch
