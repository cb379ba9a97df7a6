import Swatch.Binary64.Rounding
import Swatch.Color.Sample
import Swatch.Form.Components
/-!
Colours in hexadecimal digits.

* `Hex.components?`: the pairs of digits; three or four digits are doubled.
* `Hex.read`: a byte for each channel, and one for the alpha if there is a fourth.
* `Hex.write`: two digits for each channel, and two for an alpha below one.
-/

namespace Swatch.Hex

/-- The pairs of digits of a colour: of six or eight characters, the pairs they form; of three or
four, each character twice. -/
def components? : Text → Option Components
  | [r, g, b] => some ⟨[r, r], [g, g], [b, b], none⟩
  | [r, g, b, a] => some ⟨[r, r], [g, g], [b, b], some [a, a]⟩
  | [r, r', g, g', b, b'] => some ⟨[r, r'], [g, g'], [b, b'], none⟩
  | [r, r', g, g', b, b', a, a'] => some ⟨[r, r'], [g, g'], [b, b'], some [a, a']⟩
  | _ => none

/-- The alpha of a pair of digits, in parts of 255. -/
def readAlpha : Option Text → Except Fault (Option Binary64)
  | none => .ok none
  | some s => do
    let n ← readHexByte s
    return some (Binary64.ofInt n / 255)

/-- The colour of a text of hexadecimal digits after any number signs, if their count is right. -/
def read (s : Text) : Except Fault (Option Sample) :=
  match components? (s.dropWhile (· = '#')) with
  | none => .ok none
  | some found => do
    let red ← readHexByte found.first
    let green ← readHexByte found.second
    let blue ← readHexByte found.third
    let alpha ← readAlpha found.alpha
    some <$> Sample.ofIntegers red green blue alpha

/-- An integer in hexadecimal, in two characters at least. -/
def byteText (n : Int) : Text :=
  withSign (n < 0) (hexPadded (if n < 0 then 1 else 2) n.natAbs)

/-- The text of a rounded channel. -/
def channelText (c : Binary64) : Except Fault Text := byteText <$> c.roundHalfUp

/-- The colour in hexadecimal digits, after a number sign in functional use. -/
def write (s : Sample) (functional : Bool) : Except Fault Text := do
  let red ← channelText s.red
  let green ← channelText s.green
  let blue ← channelText s.blue
  let alpha ← match s.alpha with
    | some alpha => if alpha < 1 then channelText (alpha * 255) else .ok []
    | none => .ok []
  return (if functional then ['#'] else []) ++ red ++ green ++ blue ++ alpha

end Swatch.Hex
