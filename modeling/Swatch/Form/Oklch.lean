import Swatch.Color.Oklab
import Swatch.Form.Components
import Swatch.Form.Layout
/-!
Colours as `oklch` functions.

* `Oklch.components?`: the texts of the components at the start of a text.
* `Oklch.read`: lightness in hundredths, chroma, and hue in degrees.
* `Oklch.write`: lightness and hue with two decimals or none, chroma with at most four.
* `Oklch.trimFraction`, `Oklch.trimAlpha`: what is left out of a rounded number.
-/

namespace Swatch.Oklch

open Parts

variable [Elementary]

/-- The components at the start of a text of `oklch`: three numbers between blanks, the lightness
with a percent sign and the hue with its unit if they like. -/
def components? (s : Text) : Option (Components × Text) := do
  let s ← open? "oklch".toList false s
  let (first, s) ← decimal? (skipBlanks s)
  let s ← skipRun? isBlank (Text.dropOptional '%' s)
  let (second, s) ← decimal? s
  let s ← skipRun? isBlank s
  let (third, s) ← decimal? s
  let s := skipBlanks (Text.dropOptionalWord "deg".toList s)
  match s with
  | '/' :: s =>
    let (alpha, s) ← percentage? (skipBlanks s)
    return (⟨first, second, third, some alpha⟩, ← Text.dropWord? [')'] (skipBlanks s))
  | s => return (⟨first, second, third, none⟩, ← Text.dropWord? [')'] s)

/-- The colour of the leftmost `oklch` function of a text. -/
def read (s : Text) : Except Fault (Option Sample) :=
  match Components.leftmost? components? s with
  | none => .ok none
  | some (found, _) => do
    let lightness ← readNumber found.first
    let chroma ← readNumber found.second
    let hue ← readNumber found.third
    let alpha ← readAlpha found.alpha
    let (red, green, blue) ← (Oklch.mk (lightness / 100) chroma hue).toBytes
    some <$> Sample.ofIntegers red green blue alpha

/-- A number without the zeros at the end of its fraction, and without a point that then ends it. -/
def trimFraction (s : Text) : Text :=
  let (whole, fraction) := Text.span (· ≠ '.') s
  whole ++ Text.dropEnd ['.'] (Text.trimEnd (· = '0') fraction)

/-- A number without the zeros at its end, a point that then ends it, and a zero before its
point. -/
def trimAlpha (s : Text) : Text :=
  match Text.dropEnd ['.'] (Text.trimEnd (· = '0') s) with
  | '0' :: '.' :: s => '.' :: s
  | s => s

/-- The alpha part of a translucent colour, after a slash. -/
def alphaPart (s : Sample) : Except Fault Text :=
  match s.alpha with
  | some alpha =>
    if alpha < 1 then do
      return " / ".toList ++ trimAlpha (← alpha.fixedText 2)
    else .ok []
  | none => .ok []

/-- The colour by a rounded lightness, chroma and hue. -/
def write (s : Sample) (functional : Bool) : Except Fault Text := do
  let lch ← Oklch.ofSample s
  let lightness := Text.dropEnd ".00".toList (← (lch.lightness * 100).fixedText 2)
  let chroma := trimFraction (← lch.chroma.fixedText 4)
  let hue := Text.dropEnd ".00".toList (← lch.hue.fixedText 2)
  let alpha ← alphaPart s
  if functional then
    return "oklch(".toList ++ lightness ++ '%' :: ' ' :: chroma ++ ' ' :: hue ++ alpha ++ [')']
  else
    return lightness ++ ' ' :: chroma ++ ' ' :: hue ++ alpha

end Swatch.Oklch
