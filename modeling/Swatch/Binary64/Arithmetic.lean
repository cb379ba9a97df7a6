import Swatch.Binary64.Basic
/-!
Arithmetic on floating-point numbers: each operation is the exact result, rounded once.

* `add`, `mul`, `div`: the rounded sum, product and quotient, with the rules for zeros and
  infinities.
* `remainderTwo`: the remainder of a division by two, which is not negative.
* `floor`: the largest integer that is not above a finite number.
-/

namespace Swatch.Binary64

/-- The number with the other sign. -/
def neg : Binary64 → Binary64
  | .nan => .nan
  | .infinity negative => .infinity (!negative)
  | .finite negative units h => .finite (!negative) units h

/-- The number without its sign. -/
def abs : Binary64 → Binary64
  | .nan => .nan
  | .infinity _ => .infinity false
  | .finite _ units h => .finite false units h

/-- A signed number of units, the sign counted. -/
def signed (negative : Bool) (units : Nat) : Int := if negative then -units else units

/-- The rounded sum.  A sum of zero is negative only if both numbers are negative zeros. -/
def add : Binary64 → Binary64 → Binary64
  | .nan, _ | _, .nan => .nan
  | .infinity s, .infinity t => if s = t then .infinity s else .nan
  | .infinity s, .finite .. => .infinity s
  | .finite .., .infinity t => .infinity t
  | .finite s u _, .finite t v _ =>
    let total := signed s u + signed t v
    if total = 0 then zero (s && t) else round (total < 0) total.natAbs 1

/-- The rounded product. -/
def mul : Binary64 → Binary64 → Binary64
  | .nan, _ | _, .nan => .nan
  | .infinity s, .infinity t => .infinity (s != t)
  | .infinity s, .finite t v _ => if v = 0 then .nan else .infinity (s != t)
  | .finite s u _, .infinity t => if u = 0 then .nan else .infinity (s != t)
  | .finite s u _, .finite t v _ => round (s != t) (u * v) unitsPerOne

/-- The rounded quotient.  A quotient by zero is infinite, and that of two zeros is a NaN. -/
def div : Binary64 → Binary64 → Binary64
  | .nan, _ | _, .nan => .nan
  | .infinity _, .infinity _ => .nan
  | .infinity s, .finite t _ _ => .infinity (s != t)
  | .finite s _ _, .infinity t => zero (s != t)
  | .finite s u _, .finite t v _ =>
    if v = 0 then (if u = 0 then .nan else .infinity (s != t))
    else round (s != t) (u * unitsPerOne) v

instance : Neg Binary64 := ⟨neg⟩

instance : Add Binary64 := ⟨add⟩

instance : Sub Binary64 := ⟨fun x y => add x (neg y)⟩

instance : Mul Binary64 := ⟨mul⟩

instance : Div Binary64 := ⟨div⟩

/-- The remainder of a division by two, brought to the sign of the divisor: the exact remainder
has the sign of the number, and a negative one is raised by two. -/
def remainderTwo : Binary64 → Binary64
  | .nan | .infinity _ => .nan
  | .finite negative units _ =>
    let rest := units % (2 * unitsPerOne)
    if rest = 0 then zero false
    else if negative then round true rest 1 + 2
    else round false rest 1

/-- The largest integer that is not above a signed number of units. -/
def floorUnits (negative : Bool) (units : Nat) : Int := signed negative units / unitsPerOne

end Swatch.Binary64
