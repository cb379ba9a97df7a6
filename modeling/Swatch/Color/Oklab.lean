import Swatch.Binary64.Root
import Swatch.Color.Companding
import Swatch.Color.Sample
/-!
The Oklab colour space, in rectangular and in polar coordinates.

The constants of the matrices and the order of evaluation are part of the definitions: another
order would round differently.

* `Oklch.toOklab`, `Oklab.toLinear`, `Oklab.toBytes`, `Oklch.toBytes`: the way to sRGB.
* `Linear.toXyz`, `Xyz.toOklab`, `Oklab.toOklch`, `Oklch.ofSample`: the way back.
-/

namespace Swatch

/-- A colour by lightness and two opponent axes. -/
structure Oklab where
  lightness : Binary64
  a : Binary64
  b : Binary64
  deriving DecidableEq

/-- A colour by lightness, chroma and hue in degrees. -/
structure Oklch where
  lightness : Binary64
  chroma : Binary64
  hue : Binary64
  deriving DecidableEq

/-- Linear light in the primaries of sRGB. -/
structure Linear where
  red : Binary64
  green : Binary64
  blue : Binary64
  deriving DecidableEq

/-- A colour by the tristimulus values of the standard observer. -/
structure Xyz where
  x : Binary64
  y : Binary64
  z : Binary64
  deriving DecidableEq

/-- The floating-point number nearest to `π`. -/
def pi : Binary64 := 3.141592653589793

variable [Elementary]

/-! ### To sRGB -/

/-- Rectangular coordinates.  An infinite hue has no direction. -/
def Oklch.toOklab (c : Oklch) : Except Fault Oklab :=
  let angle := c.hue * (pi / 180)
  match angle with
  | .infinity _ => .error .infiniteAngle
  | _ => .ok ⟨c.lightness, c.chroma * Elementary.cos angle, c.chroma * Elementary.sin angle⟩

/-- The cube of a number, as two products. -/
def cubed (x : Binary64) : Binary64 := x * x * x

/-- Linear light of an Oklab colour, through the cubed responses of the three cones. -/
def Oklab.toLinear (c : Oklab) : Linear :=
  let l := cubed (c.lightness + 0.3963377774 * c.a + 0.2158037573 * c.b)
  let m := cubed (c.lightness - 0.1055613458 * c.a - 0.0638541728 * c.b)
  let s := cubed (c.lightness - 0.0894841775 * c.a - 1.2914855480 * c.b)
  { red := 4.0767416621 * l - 3.3077115913 * m + 0.2309699292 * s
    green := -1.2684380046 * l + 2.6097574011 * m - 0.3413193965 * s
    blue := -0.0041960863 * l - 0.7034186147 * m + 1.7076147010 * s }

/-- The bytes of an Oklab colour. -/
def Oklab.toBytes (c : Oklab) : Except Fault (Int × Int × Int) := do
  let linear := c.toLinear
  let red ← byteOfLinear linear.red
  let green ← byteOfLinear linear.green
  let blue ← byteOfLinear linear.blue
  return (red, green, blue)

/-- The bytes of a colour in polar coordinates. -/
def Oklch.toBytes (c : Oklch) : Except Fault (Int × Int × Int) := do
  (← c.toOklab).toBytes

/-! ### From sRGB -/

/-- Tristimulus values of linear light, for a white of 6500 kelvin. -/
def Linear.toXyz (c : Linear) : Xyz where
  x := c.red * 0.4124564 + c.green * 0.3575761 + c.blue * 0.1804375
  y := c.red * 0.2126729 + c.green * 0.7151522 + c.blue * 0.0721750
  z := c.red * 0.0193339 + c.green * 0.1191920 + c.blue * 0.9503041

/-- The Oklab colour of tristimulus values, through the cube roots of the responses of the three
cones. -/
def Xyz.toOklab (c : Xyz) : Oklab :=
  let l := Elementary.cbrt (0.4122214708 * c.x + 0.5363325363 * c.y + 0.0514459929 * c.z)
  let m := Elementary.cbrt (0.2119034982 * c.x + 0.6806995451 * c.y + 0.1073969566 * c.z)
  let s := Elementary.cbrt (0.0883024619 * c.x + 0.2817188376 * c.y + 0.6299787005 * c.z)
  { lightness := 0.2104542553 * l + 0.7936177850 * m - 0.0040720468 * s
    a := 1.9779984951 * l - 2.4285922050 * m + 0.4505937099 * s
    b := 0.0259040371 * l + 0.7827717662 * m - 0.8086757660 * s }

/-- Polar coordinates, the hue between 0 and 360 degrees. -/
def Oklab.toOklch (c : Oklab) : Oklch :=
  let hue := Elementary.atan2 c.b c.a * (180 / pi)
  { lightness := c.lightness
    chroma := (c.a * c.a + c.b * c.b).sqrt
    hue := if hue < 0 then hue + 360 else hue }

/-- The polar Oklab coordinates of an sRGB colour. -/
def Oklch.ofSample (s : Sample) : Except Fault Oklch := do
  let red ← linearOfByte s.red
  let green ← linearOfByte s.green
  let blue ← linearOfByte s.blue
  return (Linear.mk red green blue).toXyz.toOklab.toOklch

end Swatch
