import Swatch.Decimal.Shortest
/-!
Numbers with a fixed count of decimals.

* `Binary64.fixedText`: the exact value rounded to a count of decimals, a half away from zero.
  It is refused if the rounded number has more than 28 digits, or if the count of decimals is past
  the limits of a decimal number.
* `Decimal.scaledText`: the text of such a rounded number: plain unless the digits end before the
  point or the leading digit stands more than six places after it.
* `Binary64.placesText`: a count of decimals, a half to the even neighbour, no sign on a zero.
-/

namespace Swatch

/-- The whole number nearest to `num / den`; a half goes up. -/
def nearestUp (num den : Nat) : Nat := (2 * num + den) / (2 * den)

namespace Decimal

/-- The most digits that a rounded number may have. -/
def maxDigits : Nat := 28

/-- The largest power of ten that a decimal number may hold. -/
def maxExponent : Nat := 999999

/-- The last place after the point that a decimal number may have. -/
def maxPlaces : Nat := maxExponent + maxDigits - 1

/-- The count of decimals that stands for a count asked for. -/
def heldPlaces (places : Int) : Int := min places maxPlaces

/-- The farthest that the point may be asked to move. -/
def maxShift : Nat := 2 * (maxExponent + maxDigits)

/-- The text of a decimal that keeps its digits, zeros at the end included. -/
def scaledText (d : Decimal) : Text :=
  let digits := digitsOf d.digits
  let point := d.exponent + digits.length
  if d.exponent ≤ 0 && -6 < point then
    if point ≤ 0 then '0' :: '.' :: List.replicate (-point).toNat '0' ++ digits
    else if d.exponent = 0 then digits
    else digits.take point.toNat ++ '.' :: digits.drop point.toNat
  else
    let mantissa := match digits with
      | c :: d :: rest => c :: '.' :: d :: rest
      | one => one
    let lead := point - 1
    mantissa ++ 'E' :: (if lead < 0 then '-' else '+') :: digitsOf lead.natAbs

end Decimal

namespace Binary64

/-- The magnitude of a number of units in units of `10 ^ -places`, a half rounded up. -/
def scaledMagnitude (units : Nat) (places : Int) : Nat :=
  nearestUp (units * 10 ^ places.toNat) (unitsPerOne * 10 ^ (-places).toNat)

/-- The text of a number rounded to a count of decimals, which may be negative.  A number that
rounds to zero keeps its sign, but zero itself has none. -/
def fixedText (x : Binary64) (places : Int) : Except Fault Text :=
  if Decimal.maxShift < places.natAbs then .error .precision
  else if places < -Decimal.maxExponent then .error .exponentTooLarge
  else match x with
  | .nan => .ok "NaN".toList
  | .infinity _ => .error .precision
  | .finite negative units _ =>
    let places := Decimal.heldPlaces places
    let n := scaledMagnitude units places
    if 10 ^ Decimal.maxDigits ≤ n then .error .precision
    else .ok (withSign (negative && units != 0) (Decimal.scaledText ⟨n, -places⟩))

/-- The text of a number rounded to a count of decimals, all of which are written. -/
def placesText (places : Nat) : Binary64 → Text
  | .nan => "nan".toList
  | .infinity negative => withSign negative "inf".toList
  | .finite negative units _ =>
    let n := nearestEven (units * 10 ^ places) unitsPerOne
    let fraction := Decimal.digitsOf (n % 10 ^ places)
    withSign (negative && n != 0)
      (Decimal.digitsOf (n / 10 ^ places) ++ '.' ::
        List.replicate (places - fraction.length) '0' ++ fraction)

end Binary64

end Swatch
