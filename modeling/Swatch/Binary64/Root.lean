import Swatch.Binary64.Basic
/-!
Square and cube roots, correctly rounded.

* `floorRoot`: the integer part of a root of any degree, digit by digit in base two.
* `floorRoot_pow_le`, `lt_floorRoot_succ_pow`: it is the integer part.
* `Binary64.roundedRoot`: the root of a number of units, from its leading bits and the knowledge
  whether anything follows them.
-/

namespace Swatch

/-- The integer part of the root of `n` of degree `degree`.  The root of `n / 2 ^ degree` gives all
binary digits but the last, and the last is one if the square, cube, … still fits below `n`. -/
def floorRoot (degree n : Nat) : Nat :=
  if h : n = 0 ∨ degree = 0 then 0
  else
    let s := 2 * floorRoot degree (n >>> degree)
    if (s + 1) ^ degree ≤ n then s + 1 else s
termination_by n
decreasing_by
  rw [Nat.shiftRight_eq_div_pow]
  exact Nat.div_lt_self (by omega) (Nat.one_lt_two_pow (by omega))

theorem floorRoot_pow_le {degree : Nat} (hd : degree ≠ 0) (n : Nat) :
    floorRoot degree n ^ degree ≤ n := by
  induction n using Nat.strongRecOn with
  | _ n ih =>
    rw [floorRoot]
    split
    · simp [Nat.zero_pow (Nat.pos_of_ne_zero hd)]
    · next hn =>
      simp only
      split
      · assumption
      · have hlt : n >>> degree < n := by
          rw [Nat.shiftRight_eq_div_pow]
          exact Nat.div_lt_self (by omega) (Nat.one_lt_two_pow hd)
        have h := Nat.mul_le_mul_left (2 ^ degree) (ih _ hlt)
        rw [Nat.mul_pow]
        refine Nat.le_trans h ?_
        rw [Nat.shiftRight_eq_div_pow, Nat.mul_comm]
        exact Nat.div_mul_le_self _ _

theorem lt_floorRoot_succ_pow {degree : Nat} (hd : degree ≠ 0) (n : Nat) :
    n < (floorRoot degree n + 1) ^ degree := by
  induction n using Nat.strongRecOn with
  | _ n ih =>
    rw [floorRoot]
    split
    · next hn =>
      rcases hn with rfl | hn
      · simp
      · exact absurd hn hd
    · next hn =>
      simp only
      split
      · have hlt : n >>> degree < n := by
          rw [Nat.shiftRight_eq_div_pow]
          exact Nat.div_lt_self (by omega) (Nat.one_lt_two_pow hd)
        have h := ih _ hlt
        rw [Nat.shiftRight_eq_div_pow, Nat.div_lt_iff_lt_mul (Nat.two_pow_pos _),
          ← Nat.mul_pow] at h
        rw [Nat.shiftRight_eq_div_pow]
        refine Nat.lt_of_lt_of_le h (Nat.le_of_eq ?_)
        congr 1
        omega
      · omega

namespace Binary64

/-- The rounded root of a number of units.  The integer part of the root of the leading bits has
more bits than a mantissa; a further half stands for all that was cut off, which leaves the root
on the same side of every point that rounding looks at. -/
def roundedRoot (degree : Nat) (negative : Bool) (units : Nat) : Binary64 :=
  let n := units * unitsPerOne ^ (degree - 1)
  let cut := (n.log2 - 64 * degree) / degree
  let s := floorRoot degree (n >>> (degree * cut))
  let exact := (s ^ degree) <<< (degree * cut) = n
  round negative ((if exact then 2 * s else 2 * s + 1) <<< cut) 2

/-- The square root.  That of a negative number is a NaN, that of a zero the zero itself. -/
def sqrt : Binary64 → Binary64
  | .nan => .nan
  | .infinity negative => if negative then .nan else .infinity false
  | .finite negative units _ =>
    if negative && units != 0 then .nan else roundedRoot 2 negative units

/-- The cube root, which keeps the sign. -/
def cbrt : Binary64 → Binary64
  | .nan => .nan
  | .infinity negative => .infinity negative
  | .finite negative units _ => roundedRoot 3 negative units

end Binary64

end Swatch
