import Swatch.Binary64.Root
/-!
Powers with a real exponent.

The exponent is a whole number and a binary fraction.  The whole part multiplies exactly; the
fraction multiplies repeated square roots, one for each of its binary digits, in fixed point with
128 more bits than the base needs.

* `fractionalPower`: the power whose exponent is a binary fraction.
* `fractionalPower_le`: a base of at most one has a power of at most one.
-/

namespace Swatch

/-- The power of `x / 2 ^ p` with the exponent `f / 2 ^ bits` below one, in units of `2 ^ -p`.  Each
binary digit of the exponent takes a square root of the base and, if it is one, multiplies by it. -/
def fractionalPower (p : Nat) : (bits f x : Nat) → Nat
  | 0, _, _ => 2 ^ p
  | bits + 1, f, x =>
    if f = 0 then 2 ^ p
    else
      let r := floorRoot 2 (x <<< p)
      let rest := fractionalPower p bits (f % 2 ^ bits) r
      if 2 ^ bits ≤ f then (r * rest) >>> p else rest

theorem fractionalPower_le {p : Nat} (bits f : Nat) {x : Nat} (hx : x ≤ 2 ^ p) :
    fractionalPower p bits f x ≤ 2 ^ p := by
  induction bits generalizing f x with
  | zero => exact Nat.le_refl _
  | succ bits ih =>
    rw [fractionalPower]
    split
    · exact Nat.le_refl _
    · have hr : floorRoot 2 (x <<< p) ≤ 2 ^ p := by
        have h := floorRoot_pow_le (by decide : 2 ≠ 0) (x <<< p)
        rw [Nat.shiftLeft_eq] at h ⊢
        refine (Nat.pow_le_pow_iff_left (n := 2) (by decide)).1 (Nat.le_trans h ?_)
        rw [Nat.pow_two]
        exact Nat.mul_le_mul_right _ hx
      simp only
      split
      · rw [Nat.shiftRight_eq_div_pow]
        refine Nat.div_le_of_le_mul ?_
        exact Nat.mul_le_mul hr (ih _ hr)
      · exact ih _ hr

namespace Binary64

/-- The power of a number that is not negative, with an exponent that is not negative and finite;
the exponents of this library are below three.  Any other power is a NaN. -/
def pow : Binary64 → Binary64 → Binary64
  | .finite false u _, .finite false v _ =>
    let whole := v / unitsPerOne
    let p := 128 + (unitBits - u.log2)
    let part := fractionalPower p unitBits (v % unitsPerOne) ((u <<< p) >>> unitBits)
    round false (u ^ whole * part * unitsPerOne) ((unitsPerOne ^ whole) <<< p)
  | .infinity false, .finite false v _ => if v = 0 then 1 else .infinity false
  | _, _ => .nan

end Binary64

end Swatch
