import Swatch.Proofs.Binary64.Integer
/-!
Where the format ends.

A number is an infinity if rounding, with as many exponents as it takes, leads to `2 ^ 1024` or
beyond.  The largest number of the format has an odd mantissa, so the number half way between it and
`2 ^ 1024` is rounded up, and everything below is not.

* `nearestEven_lt_iff`: when a quotient is rounded to less than an even number.
* `roundUnits_lt_iff`: when a number of units is rounded to less than a power of two.
* `Binary64.isFinite_ofInt_iff`: which integers are numbers of the format once they are rounded.
-/

namespace Swatch

/-- A quotient is rounded to less than an even number if it is more than a half below it. -/
lemma nearestEven_lt_iff {num den m : Nat} (hd : 0 < den) (hm : m % 2 = 0) :
    nearestEven num den < m ↔ 2 * num + den < 2 * (m * den) := by
  have hdiv := Nat.div_add_mod' num den
  have hmod := Nat.mod_lt num hd
  rcases lt_trichotomy (num / den + 1) m with hlt | rfl | hgt
  · -- there is a whole number between the quotient and the even one
    have hstep : (num / den + 2) * den ≤ m * den := Nat.mul_le_mul_right den hlt
    rw [Nat.add_mul] at hstep
    exact iff_of_true (lt_of_le_of_lt (nearestEven_le num den) hlt) (by omega)
  · -- the quotient is between an odd number and the even one
    rw [Nat.add_mul, nearestEven]
    split_ifs <;> omega
  · have hstep : m * den ≤ num / den * den := Nat.mul_le_mul_right den (Nat.lt_succ_iff.mp hgt)
    exact iff_of_false (not_lt.mpr ((Nat.lt_succ_iff.mp hgt).trans (le_nearestEven num den)))
      (by omega)

/-- A number of units is rounded to less than a power of two if it is more than half a step of the
grid below it. -/
lemma roundUnits_lt_iff {units e : Nat} :
    roundUnits units 1 < 2 ^ (e + 53) ↔ 2 * units + 2 ^ e < 2 ^ (e + 54) := by
  have hdiv : units / 1 = units := Nat.div_one units
  have hround : roundUnits units 1
      = nearestEven units (1 <<< (units.log2 - 52)) * 2 ^ (units.log2 - 52) := by
    rw [roundUnits, hdiv, Nat.shiftLeft_eq (nearestEven _ _)]
  have hdouble : 2 ^ (e + 54) = 2 * 2 ^ (e + 53) := Nat.pow_succ'
  rcases lt_trichotomy (units.log2 - 52) e with hlt | heq | hgt
  · -- a smaller spacing: the mantissa may be full, and the next power of two is not reached
    have hunits : units < 2 ^ (e + 52) :=
      Nat.lt_log2_self.trans_le (Nat.pow_le_pow_right (by norm_num) (by omega))
    have hmantissa := nearestEven_shift_le units 1
    rw [hdiv] at hmantissa
    have hle : roundUnits units 1 ≤ 2 ^ (e + 52) := by
      rw [hround]
      calc nearestEven units (1 <<< (units.log2 - 52)) * 2 ^ (units.log2 - 52)
          ≤ 2 ^ (53 : Nat) * 2 ^ (units.log2 - 52) := Nat.mul_le_mul_right _ hmantissa
        _ = 2 ^ (53 + (units.log2 - 52)) := (Nat.pow_add _ _ _).symm
        _ ≤ 2 ^ (e + 52) := Nat.pow_le_pow_right (by norm_num) (by omega)
    have hnext : 2 ^ (e + 53) = 2 * 2 ^ (e + 52) := Nat.pow_succ'
    have hstep : 2 ^ e ≤ 2 ^ (e + 52) := Nat.pow_le_pow_right (by norm_num) (by omega)
    have hpos : 0 < 2 ^ (e + 52) := Nat.two_pow_pos _
    exact iff_of_true (by omega) (by omega)
  · -- the spacing of the power of two
    have hpos : 0 < 2 ^ e := Nat.two_pow_pos _
    have hpow : 2 ^ (e + 53) = 2 ^ (53 : Nat) * 2 ^ e := by rw [Nat.add_comm, Nat.pow_add]
    rw [hround, heq, Nat.shiftLeft_eq, Nat.one_mul, hdouble, hpow, Nat.mul_lt_mul_right hpos]
    exact nearestEven_lt_iff hpos (by norm_num)
  · -- a larger spacing: the power of two is passed before rounding
    have hne : units ≠ 0 := by
      rintro rfl
      simp at hgt
    have hunits : 2 ^ (e + 53) ≤ units :=
      (Nat.pow_le_pow_right (by norm_num) (by omega)).trans ((Nat.le_log2 hne).mp le_rfl)
    have hmantissa : 2 ^ (52 : Nat) ≤ nearestEven units (1 <<< (units.log2 - 52)) := by
      have h := @pow_le_nearestEven units 1
      rw [hdiv] at h
      exact h (by omega)
    have hle : 2 ^ (e + 53) ≤ roundUnits units 1 := by
      rw [hround]
      calc 2 ^ (e + 53) ≤ 2 ^ (52 + (units.log2 - 52)) :=
            Nat.pow_le_pow_right (by norm_num) (by omega)
        _ = 2 ^ (52 : Nat) * 2 ^ (units.log2 - 52) := Nat.pow_add _ _ _
        _ ≤ _ := Nat.mul_le_mul_right _ hmantissa
    have hpos : 0 < 2 ^ e := Nat.two_pow_pos _
    exact iff_of_false (not_lt.mpr hle) (by omega)

/-- Half a step below a power of two, in units and in wholes. -/
lemma half_step_iff (b k l n : Nat) :
    2 * (n * 2 ^ b) + 2 ^ (b + 1 + k) < 2 ^ (b + 1 + l) ↔ n < 2 ^ l - 2 ^ k := by
  have hscale (k : Nat) : 2 ^ (b + 1 + k) = 2 ^ k * 2 ^ (b + 1) := by
    rw [Nat.add_comm, Nat.pow_add]
  have hdouble : 2 * (n * 2 ^ b) = n * 2 ^ (b + 1) := by
    rw [Nat.pow_succ]
    ring
  rw [hdouble, hscale, hscale, ← Nat.add_mul, Nat.mul_lt_mul_right (Nat.two_pow_pos _),
    Nat.lt_sub_iff_add_lt]

/-- An integer is rounded to a number of the format if it is more than half a step below the power
of two behind the largest one. -/
theorem Binary64.isFinite_ofInt_iff {n : ℤ} :
    (ofInt n).isFinite = true ↔ n.natAbs < 2 ^ (1024 : Nat) - 2 ^ (970 : Nat) := by
  have hround : (ofInt n).isFinite = true ↔ roundUnits (n.natAbs * unitsPerOne) 1 < unitsBound := by
    rw [ofInt, round]
    split_ifs with h
    · exact iff_of_true rfl h
    · exact iff_of_false (by simp [isFinite]) h
  have hbound (b : Nat) : 2 ^ (b + 1024) = 2 ^ (b + 1 + 970 + 53) := by congr 1
  have hnext (b : Nat) : 2 ^ (b + 1 + 970 + 54) = 2 ^ (b + 1 + 1024) := by congr 1
  rw [hround, unitsBound_eq, hbound, roundUnits_lt_iff (e := unitBits + 1 + 970), hnext,
    unitsPerOne_eq, half_step_iff]

end Swatch
