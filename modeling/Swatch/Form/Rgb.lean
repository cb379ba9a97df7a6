import Swatch.Binary64.Rounding
import Swatch.Form.Components
import Swatch.Form.Layout
/-!
Colours as `rgb` functions.

* `Rgb.components?`: the texts of the components at the start of a text.
* `Rgb.read`: integer channels of any size.
* `Rgb.write`: rounded channels.
-/

namespace Swatch.Rgb

open Parts

/-- The components at the start of a text of `rgb` or `rgba`: three integers between separators. -/
def components? (s : Text) : Option (Components × Text) := do
  let s ← open? "rgb".toList true s
  let (first, s) ← integer? s
  let s ← skipRun? isSeparator s
  let (second, s) ← integer? s
  let s ← skipRun? isSeparator s
  let (third, s) ← integer? s
  let (alpha, s) ← alphaAndClose? (fun c => c = ',' || c = '/') s
  return (⟨first, second, third, alpha⟩, s)

/-- The colour of the leftmost `rgb` function of a text. -/
def read (s : Text) : Except Fault (Option Sample) :=
  match Components.leftmost? components? s with
  | none => .ok none
  | some (found, _) => do
    let red ← readInteger found.first
    let green ← readInteger found.second
    let blue ← readInteger found.third
    let alpha ← readAlpha found.alpha
    some <$> Sample.ofIntegers red green blue alpha

/-- The colour with rounded channels. -/
def write (s : Sample) (functional : Bool) : Except Fault Text := do
  let red ← integerText <$> s.red.roundHalfUp
  let green ← integerText <$> s.green.roundHalfUp
  let blue ← integerText <$> s.blue.roundHalfUp
  let alpha ← Layout.alphaText s
  let channels := [red, green, blue]
  return Layout.commas "rgb".toList channels channels alpha functional

end Swatch.Rgb
