import Swatch.Color.Sample
import Swatch.Decimal.Fixed
import Swatch.Decimal.Numeral
/-!
How the components of a colour are laid out, as a function or bare.

* `Layout.commas`: `rgb(1, 2, 3)`, with an `a` after the word and a fourth component if there is an
  alpha, or `1 2 3 / 0.5`.
* `Layout.alphaText`: an alpha with at most two decimals.
-/

namespace Swatch.Layout

/-- Texts joined by a separator. -/
def joined (separator : Text) (parts : List Text) : Text := separator.intercalate parts

/-- A function of components between commas, or the bare components between spaces with the alpha
after a slash. -/
def commas (word : Text) (components : List Text) (bare : List Text) (alpha : Option Text)
    (functional : Bool) : Text :=
  if functional then
    let name := match alpha with
      | some _ => word ++ ['a']
      | none => word
    name ++ '(' :: joined ", ".toList (components ++ alpha.toList) ++ [')']
  else
    joined " / ".toList (joined " ".toList bare :: alpha.toList)

/-- The alpha of a translucent colour: rounded to two decimals, then without zeros at the end. -/
def alphaText (s : Sample) : Except Fault (Option Text) :=
  match s.alpha with
  | some alpha =>
    if alpha < 1 then do
      let rounded ← readNumber (← alpha.fixedText 2)
      some <$> rounded.plainText
    else .ok none
  | none => .ok none

end Swatch.Layout
