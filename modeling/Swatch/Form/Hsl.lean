import Swatch.Color.Hsl
import Swatch.Form.Components
import Swatch.Form.Layout
/-!
Colours as `hsl` functions.

* `Hsl.components?`: the texts of the components at the start of a text.
* `Hsl.read`: an integer hue, and a saturation and lightness in hundredths.
* `Hsl.write`: a hue without decimals, and a saturation and lightness with at most one.
-/

namespace Swatch.Hsl

open Parts

/-- The components at the start of a text of `hsl` or `hsla`: an integer hue, which may have its
unit and be followed by a question mark, and two numbers that may have a percent sign. -/
def components? (s : Text) : Option (Components × Text) := do
  let s ← open? "hsl".toList true s
  let (first, s) ← Text.run? Char.isDigit s
  let s ← skipRun? (fun c => c = '?' || isSeparator c) (Text.dropOptionalWord "deg".toList s)
  let (second, s) ← decimal? s
  let s ← skipRun? isSeparator (Text.dropOptional '%' s)
  let (third, s) ← decimal? s
  let (alpha, s) ←
    alphaAndClose? (fun c => c = ',' || c = '/') (Text.dropOptional '%' s)
  return (⟨first, second, third, alpha⟩, s)

/-- The colour of the leftmost `hsl` function of a text. -/
def read (s : Text) : Except Fault (Option Sample) :=
  match Components.leftmost? components? s with
  | none => .ok none
  | some (found, _) => do
    let hue ← readInteger found.first
    let saturation ← readNumber found.second
    let lightness ← readNumber found.third
    let (red, green, blue) ← (Hue.whole hue).toBytes (saturation / 100) (lightness / 100)
    let alpha ← readAlpha found.alpha
    some <$> Sample.ofIntegers red green blue alpha

/-- The colour by a rounded hue, saturation and lightness. -/
def write (s : Sample) (functional : Bool) : Except Fault Text := do
  let hsl ← Hsl.ofSample s
  let hue ← hsl.hue.fixedText 0
  let saturation := Text.dropEnd ".0".toList (← hsl.saturation.fixedText 1)
  let lightness := Text.dropEnd ".0".toList (← hsl.lightness.fixedText 1)
  let alpha ← Layout.alphaText s
  return Layout.commas "hsl".toList [hue, saturation ++ ['%'], lightness ++ ['%']]
    [hue, saturation, lightness] alpha functional

end Swatch.Hsl
