import Swatch.Binary64.Arithmetic
/-!
Sine, cosine and the angle of a point, from their series in fixed point.

* `quarterTurn`: `π / 2`, from `1 + 1/3 + (1·2)/(3·5) + …`, with enough bits to reduce the largest
  finite angle.
* `Binary64.sin`, `Binary64.cos`: the angle is reduced to a quadrant and an angle below a quarter
  turn, for which the alternating series converges at once.
* `Binary64.atan2`: the angle of a point, from Euler's series, all of whose terms are positive.
-/

namespace Swatch

/-- The bits after the point in which an angle is reduced: the bits of the largest finite number,
and 320 more for the remainder. -/
def reductionBits : Nat := 1344

/-- The bits after the point in which the series are summed. -/
def seriesBits : Nat := 256

theorem reductionBits_eq : reductionBits = 1344 := rfl

theorem seriesBits_eq : seriesBits = 256 := rfl

-- like the scale of the format, that of the series is too large to be computed with
attribute [irreducible] reductionBits seriesBits

/-- The terms of `1 + 1/3 + (1·2)/(3·5) + …` from the one given, the one before the `n`-th. -/
def quarterTurnTerms : (steps n term : Nat) → Nat
  | 0, _, _ => 0
  | steps + 1, n, term => term + quarterTurnTerms steps (n + 1) (term * n / (2 * n + 1))

/-- A quarter turn, `π / 2`, in units of `2 ^ -reductionBits`.  Each term is less than half the one
before; sixteen guard bits absorb what the divisions cut off. -/
def quarterTurn : Nat :=
  quarterTurnTerms (reductionBits + 17) 1 (2 ^ (reductionBits + 16)) >>> 16

/-- The terms of an alternating power series from `term`, whose power of the argument is `k`: each
next term is multiplied by the squared argument and divided by the next two factors of `k!`. -/
def alternatingTerms (square : Nat) : (steps k term : Nat) → Int
  | 0, _, _ => 0
  | steps + 1, k, term =>
    term - alternatingTerms square steps (k + 2)
      ((term * square) >>> seriesBits / ((k + 1) * (k + 2)))

/-- A series sum as a sine or cosine of an angle within a quarter turn: neither negative nor above
one, which the last bit of a truncated sum might be. -/
def withinOne (sum : Int) : Nat := min sum.toNat (2 ^ seriesBits)

/-- The sine of an angle below a quarter turn, in fixed point. -/
def sineSeries (r : Nat) : Nat :=
  withinOne (alternatingTerms ((r * r) >>> seriesBits) 40 1 r)

/-- The cosine of an angle below a quarter turn, in fixed point. -/
def cosineSeries (r : Nat) : Nat :=
  withinOne (alternatingTerms ((r * r) >>> seriesBits) 40 0 (2 ^ seriesBits))

/-- The terms of Euler's series for the angle whose tangent has the square `square / rest`, from
the one before the `n`-th, where `total` is `square + rest`. -/
def angleTerms (square total : Nat) : (steps n term : Nat) → Nat
  | 0, _, _ => 0
  | steps + 1, n, term =>
    term + angleTerms square total steps (n + 1)
      (term * (2 * n * square) / ((2 * n + 1) * total))

/-- The angle, in fixed point, whose tangent is `a / b` for `a ≤ b` and `b` positive. -/
def angleBelowEighth (a b : Nat) : Nat :=
  let t := (a <<< seriesBits) / b
  let total := 2 ^ (2 * seriesBits) + t * t
  angleTerms (t * t) total seriesBits 1 ((t <<< (2 * seriesBits)) / total)

namespace Binary64

/-- The quadrant of an angle of so many units, and the angle in fixed point within the quadrant. -/
def quadrant (units : Nat) : Nat × Nat :=
  let x := units <<< (reductionBits - unitBits)
  (x / quarterTurn % 4, (x % quarterTurn) >>> (reductionBits - seriesBits))

/-- The number nearest to a value in fixed point. -/
def ofFixedPoint (negative : Bool) (n : Nat) : Binary64 :=
  round negative (n * unitsPerOne) (2 ^ seriesBits)

/-- Below this many units, `2 ^ -27`, an angle is its own sine and the cosine is one, to the last
bit. -/
def tinyAngle : Nat := 2 ^ (unitBits - 27)

/-- The sine; that of an infinity is a NaN. -/
def sin : Binary64 → Binary64
  | .nan | .infinity _ => .nan
  | .finite negative units h =>
    if units < tinyAngle then .finite negative units h
    else
      let (q, r) := quadrant units
      ofFixedPoint (negative != (2 ≤ q)) (if q % 2 = 0 then sineSeries r else cosineSeries r)

/-- The cosine; that of an infinity is a NaN. -/
def cos : Binary64 → Binary64
  | .nan | .infinity _ => .nan
  | .finite _ units _ =>
    if units < tinyAngle then 1
    else
      let (q, r) := quadrant units
      ofFixedPoint (q == 1 || q == 2) (if q % 2 = 0 then cosineSeries r else sineSeries r)

/-- An angle of so many eighths of a turn. -/
def eighths (negative : Bool) (n : Nat) : Binary64 :=
  ofFixedPoint negative ((n * quarterTurn) >>> (reductionBits - seriesBits + 1))

/-- The angle of the direction that is `v` along the first axis, backwards if `back`, and `u`
along the second; neither is zero. -/
def angleOf (negative : Bool) (u : Nat) (back : Bool) (v : Nat) : Binary64 :=
  if !back && u <<< 27 < v then round negative (u * unitsPerOne) v
  else
    let quarter := quarterTurn >>> (reductionBits - seriesBits)
    let acute := if u ≤ v then angleBelowEighth u v else quarter - angleBelowEighth v u
    ofFixedPoint negative (if back then 2 * quarter - acute else acute)

/-- The angle from the first axis to the point whose second coordinate is `y` and whose first is
`x`, with the sign of `y`. -/
def atan2 : (y x : Binary64) → Binary64
  | .nan, _ | _, .nan => .nan
  | .infinity s, .infinity back => eighths s (if back then 3 else 1)
  | .infinity s, .finite .. => eighths s 2
  | .finite s _ _, .infinity back => if back then eighths s 4 else zero s
  | .finite s u _, .finite back v _ =>
    if u = 0 then (if back then eighths s 4 else zero s)
    else if v = 0 then eighths s 2
    else angleOf s u back v

end Binary64

end Swatch
