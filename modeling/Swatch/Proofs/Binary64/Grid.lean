import Swatch.Proofs.Binary64.Error
/-!
Rounding chooses a point of the grid that no other one is nearer than.

* `abs_nearestEven_sub_le`: no whole number is nearer to a quotient than the one that is chosen.
* `abs_roundUnits_sub_le_of_dvd`: no point of the grid is nearer to a quotient of units.
* `lt_mul_sub_of_dvd`: the points of the grid keep a distance of a part in `2 ^ 53`.
* `roundUnits_eq_of_near`: so what is nearer to a point of the grid than half of that is rounded to
  it, also below a power of two, where the grid is twice as fine.
-/

namespace Swatch

/-- No whole number is nearer to a quotient than the one that is chosen. -/
lemma abs_nearestEven_sub_le (num : Nat) {den : Nat} (hd : 0 < den) (k : Nat) :
    |(nearestEven num den : ℚ) - num / den| ≤ |(k : ℚ) - num / den| := by
  have hdq : (0 : ℚ) < den := Nat.cast_pos.mpr hd
  have hhalf : |(nearestEven num den : ℚ) - num / den| ≤ 1 / 2 := by
    have heven := abs_two_mul_nearestEven_sub_le num hd
    have hmul : 2 * ((nearestEven num den : ℚ) * den - num)
        = 2 * den * ((nearestEven num den : ℚ) - num / den) := by
      field_simp
    rw [hmul, abs_mul, abs_of_pos (by positivity : (0 : ℚ) < 2 * den)] at heven
    nlinarith
  by_cases hk : k = nearestEven num den
  · rw [hk]
  · -- another whole number is at least one away from the chosen one
    have hone : (1 : ℚ) ≤ |(k : ℚ) - nearestEven num den| := by
      have hint : (1 : ℤ) ≤ |(k : ℤ) - nearestEven num den| :=
        Int.one_le_abs (sub_ne_zero.mpr (Nat.cast_injective.ne hk))
      exact_mod_cast hint
    have htriangle := abs_sub_le (k : ℚ) (num / den) (nearestEven num den)
    rw [abs_sub_comm (num / den : ℚ)] at htriangle
    linarith

/-- No point of the grid is nearer to a quotient of units than what it is rounded to.  A point that
is not a multiple of the spacing around the quotient lies below the power of two at its first digit,
which is one. -/
theorem abs_roundUnits_sub_le_of_dvd (num : Nat) {den u : Nat} (hd : 0 < den)
    (hu : 2 ^ (u.log2 - 52) ∣ u) :
    |(roundUnits num den : ℚ) - num / den| ≤ |(u : ℚ) - num / den| := by
  have hdq : (0 : ℚ) < den := Nat.cast_pos.mpr hd
  obtain ⟨spacing, hspacing⟩ : ∃ s, (num / den).log2 - 52 = s := ⟨_, rfl⟩
  have hround : roundUnits num den = nearestEven num (den * 2 ^ spacing) * 2 ^ spacing := by
    rw [roundUnits, hspacing, Nat.shiftLeft_eq, Nat.shiftLeft_eq]
  have hmultiple (k : Nat) :
      |(roundUnits num den : ℚ) - num / den| ≤ |((k * 2 ^ spacing : Nat) : ℚ) - num / den| := by
    have hscaled (m : Nat) : ((m * 2 ^ spacing : Nat) : ℚ) - num / den
        = 2 ^ spacing * ((m : ℚ) - num / (den * 2 ^ spacing : Nat)) := by
      push_cast
      field_simp
    have hpow : (0 : ℚ) < 2 ^ spacing := by positivity
    rw [hround, hscaled, hscaled, abs_mul, abs_mul]
    exact mul_le_mul_of_nonneg_left
      (abs_nearestEven_sub_le num (Nat.mul_pos hd (Nat.two_pow_pos _)) k) (abs_nonneg _)
  rcases le_or_gt spacing (u.log2 - 52) with hcoarse | hfine
  · obtain ⟨k, hk⟩ := (Nat.pow_dvd_pow 2 hcoarse).trans hu
    rw [Nat.mul_comm] at hk
    rw [hk]
    exact hmultiple k
  · have hne : num / den ≠ 0 := by
      intro hzero
      rw [hzero] at hspacing
      simp at hspacing
      omega
    have hfirst : 2 ^ (52 : Nat) * 2 ^ spacing ≤ num / den := by
      rw [← Nat.pow_add]
      exact (Nat.le_log2 hne).mp (by omega)
    have hbelow : u < 2 ^ (52 : Nat) * 2 ^ spacing := by
      rw [← Nat.pow_add]
      exact Nat.lt_log2_self.trans_le (Nat.pow_le_pow_right (by norm_num) (by omega))
    have hquotient : ((2 ^ (52 : Nat) * 2 ^ spacing : Nat) : ℚ) ≤ num / den :=
      le_trans (Nat.cast_le.mpr hfirst) Nat.cast_div_le
    have hu' : (u : ℚ) < (2 ^ (52 : Nat) * 2 ^ spacing : Nat) := Nat.cast_lt.mpr hbelow
    refine (hmultiple (2 ^ (52 : Nat))).trans ?_
    rw [abs_of_nonpos (by linarith), abs_of_nonpos (by linarith)]
    linarith

/-- The points of the grid keep their distance: at least a part in `2 ^ 53` of the smaller one. -/
lemma lt_mul_sub_of_dvd {a b : Nat} (ha : 2 ^ (a.log2 - 52) ∣ a) (hb : 2 ^ (b.log2 - 52) ∣ b)
    (h : a < b) : a < 2 ^ (53 : Nat) * (b - a) := by
  have hlog : a.log2 ≤ b.log2 := by
    rw [Nat.log2_eq_log_two, Nat.log2_eq_log_two]
    exact Nat.log_mono_right h.le
  have hdvd : 2 ^ (a.log2 - 52) ∣ b - a :=
    Nat.dvd_sub ((Nat.pow_dvd_pow 2 (Nat.sub_le_sub_right hlog 52)).trans hb) ha
  calc a < 2 ^ (a.log2 + 1) := Nat.lt_log2_self
    _ ≤ 2 ^ (53 + (a.log2 - 52)) := Nat.pow_le_pow_right (by norm_num) (by omega)
    _ = 2 ^ (53 : Nat) * 2 ^ (a.log2 - 52) := Nat.pow_add _ _ _
    _ ≤ 2 ^ (53 : Nat) * (b - a) := Nat.mul_le_mul_left _ (Nat.le_of_dvd (by omega) hdvd)

/-- What is near enough to a point of the grid is rounded to it. -/
theorem roundUnits_eq_of_near {num den u : Nat} (hd : 0 < den) (hu : 2 ^ (u.log2 - 52) ∣ u)
    (h : (2 ^ 54 + 2) * |(u : ℚ) - num / den| ≤ u) : roundUnits num den = u := by
  obtain ⟨w, hw⟩ : ∃ w, roundUnits num den = w := ⟨_, rfl⟩
  have hgrid : 2 ^ (w.log2 - 52) ∣ w := by
    rw [← hw, roundUnits, Nat.shiftLeft_eq (nearestEven _ _)]
    exact pow_log2_sub_dvd _ (nearestEven_shift_le num den)
  have hnearer := abs_roundUnits_sub_le_of_dvd num hd hu
  have htriangle := abs_sub_le (w : ℚ) (num / den) u
  rw [abs_sub_comm (num / den : ℚ)] at htriangle
  rw [hw] at hnearer ⊢
  have hclose : (2 ^ 53 + 1) * |(w : ℚ) - u| ≤ u := by linarith
  rcases lt_trichotomy w u with hlt | heq | hgt
  · have hdistance := lt_mul_sub_of_dvd hgrid hu hlt
    have hdistanceq : (w : ℚ) < 2 ^ 53 * (u - w) := by
      rw [← Nat.cast_sub hlt.le]
      exact_mod_cast hdistance
    rw [abs_of_nonpos (sub_nonpos.mpr (Nat.cast_le.mpr hlt.le))] at hclose
    linarith
  · exact heq
  · have hdistance := lt_mul_sub_of_dvd hu hgrid hgt
    have hdistanceq : (u : ℚ) < 2 ^ 53 * (w - u) := by
      rw [← Nat.cast_sub hgt.le]
      exact_mod_cast hdistance
    have hgtq : (u : ℚ) < w := Nat.cast_lt.mpr hgt
    rw [abs_of_pos (sub_pos.mpr hgtq)] at hclose
    linarith

end Swatch
