import Swatch.Proofs.Binary64.Taylor
/-!
The angle of a point.

* `IsDirection`: a point lies in the direction of an angle.
* `Binary64.exists_direction`: the angle that is computed for a point of finite coordinates is
  within a rounding of a direction of the point, at most half a turn off.
-/

namespace Swatch

/-- The series for the angle of a point cuts off no more than other series do. -/
lemma seriesBits_mul_le : 4 * seriesBits + 11 ≤ 2 ^ (15 : Nat) := by
  rw [seriesBits_eq]
  decide

/-! ### Directions -/

/-- A point lies in the direction of an angle. -/
def IsDirection (x y φ : ℝ) : Prop :=
  x = √(x ^ 2 + y ^ 2) * Real.cos φ ∧ y = √(x ^ 2 + y ^ 2) * Real.sin φ

namespace IsDirection

variable {x y φ : ℝ}

/-- The direction of the point on the other side of the first axis. -/
lemma neg_right (h : IsDirection x y φ) : IsDirection x (-y) (-φ) := by
  rw [IsDirection, neg_sq, Real.cos_neg, Real.sin_neg, mul_neg, ← h.1, ← h.2]
  exact ⟨rfl, rfl⟩

/-- The direction of the point on the other side of the second axis. -/
lemma neg_left (h : IsDirection x y φ) : IsDirection (-x) y (Real.pi - φ) := by
  rw [IsDirection, neg_sq, Real.cos_pi_sub, Real.sin_pi_sub, mul_neg, ← h.1, ← h.2]
  exact ⟨rfl, rfl⟩

/-- The direction of a point on the positive side of the second axis. -/
lemma arctan (hx : 0 < x) (y : ℝ) : IsDirection x y (Real.arctan (y / x)) := by
  have hroot : √(x ^ 2 + y ^ 2) = x * √(1 + (y / x) ^ 2) := by
    have hsplit : x ^ 2 + y ^ 2 = x ^ 2 * (1 + (y / x) ^ 2) := by
      field_simp
    rw [hsplit, Real.sqrt_mul (sq_nonneg x), Real.sqrt_sq hx.le]
  have hpos : 0 < √(1 + (y / x) ^ 2) := Real.sqrt_pos.mpr (by positivity)
  rw [IsDirection, hroot, Real.cos_arctan, Real.sin_arctan]
  constructor <;> field_simp

/-- The direction of a point with other signs. -/
lemma signed (h : IsDirection x y φ) (back negative : Bool) :
    IsDirection ((if back then -1 else 1) * x) ((if negative then -1 else 1) * y)
      (if negative then -(if back then Real.pi - φ else φ)
        else if back then Real.pi - φ else φ) := by
  have hback : IsDirection ((if back then -1 else 1) * x) y (if back then Real.pi - φ else φ) := by
    cases back with
    | false => simpa using h
    | true => simpa using h.neg_left
  cases negative with
  | false => simpa using hback
  | true => simpa using hback.neg_right

/-- An angle of at most half a turn stays so with other signs. -/
lemma abs_signed_le {φ : ℝ} (h0 : 0 ≤ φ) (h1 : φ ≤ Real.pi) (back negative : Bool) :
    |if negative then -(if back then Real.pi - φ else φ)
      else if back then Real.pi - φ else φ| ≤ Real.pi := by
  rw [abs_le]
  split_ifs <;> constructor <;> linarith

/-- The direction of a point on the positive half of the first axis. -/
lemma of_nonneg (hx : 0 ≤ x) : IsDirection x 0 0 := by
  simp [IsDirection, Real.sqrt_sq hx]

/-- The direction of a point on the positive half of the second axis. -/
lemma quarter (hy : 0 ≤ y) : IsDirection 0 y (Real.pi / 2) := by
  simp [IsDirection, Real.sqrt_sq hy]

end IsDirection

/-! ### Angles in fixed point -/

/-- What is cut off at zero is no farther from a number that is not below zero. -/
lemma abs_natSub_sub_le {a b : Nat} {v : ℝ} (hv : 0 ≤ v) :
    |((a - b : Nat) : ℝ) - v| ≤ |(a : ℝ) - b - v| := by
  rcases Nat.le_total b a with hle | hle
  · rw [Nat.cast_sub hle]
  · have hcast : (a : ℝ) ≤ b := Nat.cast_le.mpr hle
    rw [Nat.sub_eq_zero_of_le hle, Nat.cast_zero, zero_sub, abs_neg, abs_of_nonneg hv,
      abs_of_nonpos (by linarith)]
    linarith

/-- A quarter turn in the bits of the series. -/
lemma abs_quarter_sub_le : |((quarterTurn >>> (reductionBits - seriesBits) : Nat) : ℝ)
    - 2 ^ seriesBits * (Real.pi / 2)| ≤ 3 := by
  have hS : (0 : ℝ) < 2 ^ seriesBits := by positivity
  have hshift := (Binary64.shiftRight_mem quarterTurn).2
  have hquarter := Binary64.abs_quarterTurn_div_sub_le
  have hbits : 2 / (2 : ℝ) ^ reductionBits ≤ 2 / 2 ^ seriesBits := by
    refine div_le_div_of_nonneg_left two_pos.le hS ?_
    exact pow_le_pow_right₀ one_le_two Binary64.seriesBits_lt.le
  set quarter := quarterTurn >>> (reductionBits - seriesBits)
  have hsum : |(quarter : ℝ) / 2 ^ seriesBits - Real.pi / 2| ≤ 3 / 2 ^ seriesBits := by
    rw [abs_sub_comm] at hshift
    refine (abs_sub_le _ _ _).trans ((add_le_add hshift (hquarter.trans hbits)).trans (le_of_eq ?_))
    ring
  have hsplit : (quarter : ℝ) - 2 ^ seriesBits * (Real.pi / 2)
      = 2 ^ seriesBits * (quarter / 2 ^ seriesBits - Real.pi / 2) := by
    field_simp
  rw [hsplit, abs_mul, abs_of_pos hS]
  calc 2 ^ seriesBits * |(quarter : ℝ) / 2 ^ seriesBits - Real.pi / 2|
      ≤ 2 ^ seriesBits * (3 / 2 ^ seriesBits) := mul_le_mul_of_nonneg_left hsum hS.le
    _ = 3 := mul_div_cancel₀ _ hS.ne'

/-- The angle between the first axis and a point off both axes, without regard to signs. -/
lemma abs_acute_sub_le {u v : Nat} (hu : u ≠ 0) (hv : v ≠ 0) :
    |((if u ≤ v then angleBelowEighth u v
        else quarterTurn >>> (reductionBits - seriesBits) - angleBelowEighth v u : Nat) : ℝ)
      - 2 ^ seriesBits * Real.arctan (u / v)| ≤ 4 * seriesBits + 5 := by
  have hS : (0 : ℝ) < 2 ^ seriesBits := by positivity
  have hupos : (0 : ℝ) < u := Nat.cast_pos.mpr (Nat.pos_of_ne_zero hu)
  have hvpos : (0 : ℝ) < v := Nat.cast_pos.mpr (Nat.pos_of_ne_zero hv)
  split_ifs with hle
  · linarith [abs_angleBelowEighth_sub_le hle (Nat.pos_of_ne_zero hv)]
  · have hbelow := abs_angleBelowEighth_sub_le (not_le.mp hle).le (Nat.pos_of_ne_zero hu)
    have hother : Real.arctan (v / u) = Real.pi / 2 - Real.arctan (u / v) := by
      rw [← inv_div, Real.arctan_inv_of_pos (by positivity)]
    have hpos : 0 ≤ 2 ^ seriesBits * Real.arctan (u / v) :=
      mul_nonneg hS.le (Real.arctan_nonneg.mpr (by positivity))
    refine (abs_natSub_sub_le hpos).trans ?_
    rw [hother] at hbelow
    set quarter := quarterTurn >>> (reductionBits - seriesBits)
    have hsplit : (quarter : ℝ) - angleBelowEighth v u - 2 ^ seriesBits * Real.arctan (u / v)
        = (quarter - 2 ^ seriesBits * (Real.pi / 2)) - (angleBelowEighth v u
          - 2 ^ seriesBits * (Real.pi / 2 - Real.arctan (u / v))) := by ring
    rw [hsplit]
    refine (abs_sub _ _).trans ((add_le_add abs_quarter_sub_le hbelow).trans (le_of_eq ?_))
    ring

namespace Binary64

/-- A tangent below `2 ^ -27` differs from its angle by less than a rounding. -/
lemma abs_arctan_sub_self_le {t : ℝ} (h0 : 0 ≤ t) (h1 : t ≤ 1 / 2 ^ 27) :
    |Real.arctan t - t| ≤ 1 / 2 ^ 54 := by
  have hderiv : ∀ x ∈ Set.Icc (0 : ℝ) (1 / 2 ^ 27), HasDerivWithinAt
      (fun t => Real.arctan t - t) (1 / (1 + x ^ 2) - 1) (Set.Icc 0 (1 / 2 ^ 27)) x :=
    fun x _ => ((Real.hasDerivAt_arctan x).sub (hasDerivAt_id x)).hasDerivWithinAt
  have hbound : ∀ x ∈ Set.Icc (0 : ℝ) (1 / 2 ^ 27), ‖1 / (1 + x ^ 2) - 1‖ ≤ 1 / 2 ^ 54 := by
    intro x hx
    have hpos : (0 : ℝ) < 1 + x ^ 2 := by positivity
    have hsq : x ^ 2 ≤ (1 / 2 ^ 27) ^ 2 := pow_le_pow_left₀ hx.1 hx.2 2
    have hsplit : 1 / (1 + x ^ 2) - 1 = -(x ^ 2 / (1 + x ^ 2)) := by
      field_simp
      ring
    rw [hsplit, norm_neg, Real.norm_of_nonneg (by positivity)]
    calc x ^ 2 / (1 + x ^ 2) ≤ x ^ 2 := div_le_self (by positivity) (by linarith [sq_nonneg x])
      _ ≤ (1 / 2 ^ 27) ^ 2 := hsq
      _ = 1 / 2 ^ 54 := by norm_num
  have hmean := (convex_Icc (0 : ℝ) (1 / 2 ^ 27)).norm_image_sub_le_of_norm_hasDerivWithin_le
    hderiv hbound (Set.left_mem_Icc.mpr (by positivity)) (Set.mem_Icc.mpr ⟨h0, h1⟩)
  rw [Real.arctan_zero, sub_zero, sub_zero, sub_zero] at hmean
  refine hmean.trans (mul_le_of_le_one_right (by positivity) ?_)
  rw [Real.norm_of_nonneg h0]
  exact h1.trans (by norm_num)

/-- An angle of so many eighths of a turn. -/
lemma abs_eighths_sub_le (negative : Bool) {n : Nat} (hn : n ≤ 4) :
    (eighths negative n).isFinite = true ∧ |((eighths negative n).value : ℝ)
      - (if negative then -(n * (Real.pi / 4)) else n * (Real.pi / 4))| ≤ 1 / 2 ^ 39 := by
  have hS : (0 : ℝ) < 2 ^ seriesBits := by positivity
  have hnr : (n : ℝ) ≤ 4 := by exact_mod_cast hn
  have hangle : |(n : ℝ) * (Real.pi / 4)| ≤ 4 := by
    rw [abs_of_nonneg (by positivity)]
    nlinarith [Real.pi_le_four, Real.pi_pos]
  refine abs_ofFixedPoint_sub_le negative hangle ?_
  rw [Nat.shiftRight_eq_div_pow]
  have hcut := abs_div_sub_le (n * quarterTurn) (Nat.two_pow_pos (reductionBits - seriesBits + 1))
  have hpow : (2 : ℝ) ^ reductionBits = 2 ^ (reductionBits - seriesBits) * 2 ^ seriesBits := by
    rw [← pow_add, Nat.sub_add_cancel seriesBits_lt.le]
  have hquarter : |((n * quarterTurn : Nat) : ℝ) / (2 ^ (reductionBits - seriesBits + 1) : Nat)
      - 2 ^ seriesBits * (n * (Real.pi / 4))| ≤ 4 := by
    have hsplit : ((n * quarterTurn : Nat) : ℝ) / (2 ^ (reductionBits - seriesBits + 1) : Nat)
        - 2 ^ seriesBits * (n * (Real.pi / 4))
        = n / 2 * (2 ^ seriesBits * (quarterTurn / 2 ^ reductionBits - Real.pi / 2)) := by
      rw [hpow]
      push_cast
      rw [pow_succ]
      field_simp
      ring
    have hone : (2 : ℝ) ^ seriesBits * (2 / 2 ^ reductionBits) ≤ 2 := by
      rw [← mul_div_assoc, div_le_iff₀ (by positivity), mul_comm]
      exact mul_le_mul_of_nonneg_left (pow_le_pow_right₀ one_le_two seriesBits_lt.le) two_pos.le
    rw [hsplit, abs_mul, abs_of_nonneg (by positivity), abs_mul, abs_of_pos hS]
    calc (n : ℝ) / 2 * (2 ^ seriesBits * |(quarterTurn : ℝ) / 2 ^ reductionBits - Real.pi / 2|)
        ≤ 4 / 2 * (2 ^ seriesBits * (2 / 2 ^ reductionBits)) := by
          gcongr
          exact abs_quarterTurn_div_sub_le
      _ ≤ 4 := by linarith
  refine (abs_sub_le _ _ _).trans ((add_le_add hcut hquarter).trans ?_)
  norm_num

/-- A small tangent that is rounded in place of its angle. -/
lemma abs_round_tangent_sub_le (negative : Bool) {u v : Nat} (hsmall : u <<< 27 < v) :
    (round negative (u * unitsPerOne) v).isFinite = true ∧
      |((round negative (u * unitsPerOne) v).value : ℝ)
        - (if negative then -Real.arctan (u / v) else Real.arctan (u / v))| ≤ 1 / 2 ^ 39 := by
  have hv : 0 < v := Nat.zero_lt_of_lt hsmall
  have hvpos : (0 : ℝ) < v := Nat.cast_pos.mpr hv
  have hU : (unitsPerOne : ℝ) ≠ 0 := Nat.cast_ne_zero.mpr unitsPerOne_pos.ne'
  have htangent : (u : ℝ) / v ≤ 1 / 2 ^ 27 := by
    rw [Nat.shiftLeft_eq] at hsmall
    rw [div_le_div_iff₀ hvpos (by positivity), one_mul]
    exact_mod_cast hsmall.le
  have hself := abs_arctan_sub_self_le (by positivity) htangent
  have hquotient : ((u * unitsPerOne : Nat) : ℝ) / v / unitsPerOne = u / v := by
    push_cast
    field_simp
  have hnear : |((u * unitsPerOne : Nat) : ℝ) / v / unitsPerOne - Real.arctan (u / v)|
      ≤ 1 / 2 ^ 40 := by
    rw [hquotient, abs_sub_comm]
    exact hself.trans (by norm_num)
  refine abs_round_sub_le negative hv ?_ hnear
  have h0 : 0 ≤ Real.arctan ((u : ℝ) / v) := Real.arctan_nonneg.mpr (by positivity)
  have h1 := Real.arctan_lt_pi_div_two ((u : ℝ) / v)
  exact abs_le.mpr ⟨by linarith, by linarith [Real.pi_le_four]⟩

/-- An angle that is taken from the half turn if its direction is backwards. -/
lemma abs_turned_sub_le (back : Bool) {acute : Nat} {α ε : ℝ} (hα : α ≤ Real.pi)
    (h : |(acute : ℝ) - 2 ^ seriesBits * α| ≤ ε) :
    |((if back then 2 * (quarterTurn >>> (reductionBits - seriesBits)) - acute
        else acute : Nat) : ℝ) - 2 ^ seriesBits * (if back then Real.pi - α else α)| ≤ 6 + ε := by
  have hquarter := abs_quarter_sub_le
  set quarter := quarterTurn >>> (reductionBits - seriesBits)
  cases back with
  | false =>
      simp only [Bool.false_eq_true, if_false]
      linarith
  | true =>
      simp only [if_true]
      have hnonneg : 0 ≤ 2 ^ seriesBits * (Real.pi - α) :=
        mul_nonneg (by positivity) (by linarith)
      refine (abs_natSub_sub_le hnonneg).trans ?_
      have hsplit : ((2 * quarter : Nat) : ℝ) - acute - 2 ^ seriesBits * (Real.pi - α)
          = 2 * (quarter - 2 ^ seriesBits * (Real.pi / 2)) - (acute - 2 ^ seriesBits * α) := by
        push_cast
        ring
      rw [hsplit]
      refine (abs_sub _ _).trans ?_
      rw [abs_mul, abs_of_pos two_pos]
      linarith

/-- The angle of a point off both axes. -/
lemma abs_angleOf_sub_le (negative back : Bool) {u v : Nat} (hu : u ≠ 0) (hv : v ≠ 0) :
    (angleOf negative u back v).isFinite = true ∧ |((angleOf negative u back v).value : ℝ)
      - (if negative then -(if back then Real.pi - Real.arctan (u / v) else Real.arctan (u / v))
        else if back then Real.pi - Real.arctan (u / v) else Real.arctan (u / v))|
      ≤ 1 / 2 ^ 39 := by
  rw [angleOf]
  by_cases hsmall : (!back && decide (u <<< 27 < v)) = true
  · rw [if_pos hsmall]
    obtain ⟨hback, hlt⟩ := Bool.and_eq_true_iff.mp hsmall
    obtain rfl : back = false := by simpa using hback
    simp only [Bool.false_eq_true, if_false]
    exact abs_round_tangent_sub_le negative (of_decide_eq_true hlt)
  · rw [if_neg hsmall]
    have h0 : 0 ≤ Real.arctan ((u : ℝ) / v) := Real.arctan_nonneg.mpr (by positivity)
    have h1 := Real.arctan_lt_pi_div_two ((u : ℝ) / v)
    have hpi := Real.pi_le_four
    have hcut : (4 * seriesBits + 11 : ℝ) ≤ 2 ^ 15 := by exact_mod_cast seriesBits_mul_le
    refine abs_ofFixedPoint_sub_le negative ?_
      ((abs_turned_sub_le back (by linarith) (abs_acute_sub_le hu hv)).trans ?_)
    · rw [abs_le]
      split_ifs <;> constructor <;> linarith
    · linarith

/-- **The angle of a point** of finite coordinates is within a rounding of a direction in which the
point lies. -/
theorem exists_direction {x y : Binary64} (hx : x.isFinite = true) (hy : y.isFinite = true) :
    (atan2 y x).isFinite = true ∧ ∃ φ : ℝ, |φ| ≤ Real.pi ∧ IsDirection x.value y.value φ ∧
      |((atan2 y x).value : ℝ) - φ| ≤ 1 / 2 ^ 39 := by
  obtain ⟨back, v, hv, rfl⟩ := exists_finite hx
  obtain ⟨negative, u, hu, rfl⟩ := exists_finite hy
  have hU : (0 : ℝ) < unitsPerOne := by exact_mod_cast unitsPerOne_pos
  have hpi := Real.pi_pos.le
  rw [value_finite, value_finite, atan2]
  by_cases hu0 : u = 0
  · -- on the first axis
    have hdirection := (IsDirection.of_nonneg (by positivity : 0 ≤ (v : ℝ) / unitsPerOne)).signed
      back negative
    rw [if_pos hu0, hu0, Nat.cast_zero, zero_div]
    cases back with
    | true =>
        obtain ⟨hfinite, hnear⟩ := abs_eighths_sub_le negative (le_refl 4)
        refine ⟨hfinite, _, IsDirection.abs_signed_le le_rfl hpi _ _, hdirection, ?_⟩
        have hturn : ((4 : Nat) : ℝ) * (Real.pi / 4) = Real.pi := by
          push_cast
          ring
        rw [hturn] at hnear
        simpa using hnear
    | false =>
        refine ⟨rfl, _, IsDirection.abs_signed_le le_rfl hpi _ _, hdirection, ?_⟩
        simp
  · rw [if_neg hu0]
    by_cases hv0 : v = 0
    · -- on the second axis
      have hdirection := (IsDirection.quarter (by positivity : 0 ≤ (u : ℝ) / unitsPerOne)).signed
        false negative
      obtain ⟨hfinite, hnear⟩ := abs_eighths_sub_le negative (by norm_num : 2 ≤ 4)
      rw [if_pos hv0, hv0, Nat.cast_zero, zero_div, mul_zero]
      rw [mul_zero] at hdirection
      refine ⟨hfinite, _,
        IsDirection.abs_signed_le (by positivity) (by linarith) false negative, hdirection, ?_⟩
      have hturn : ((2 : Nat) : ℝ) * (Real.pi / 4) = Real.pi / 2 := by
        push_cast
        ring
      rw [hturn] at hnear
      simpa using hnear
    · rw [if_neg hv0]
      have hvpos : (0 : ℝ) < v / unitsPerOne :=
        div_pos (Nat.cast_pos.mpr (Nat.pos_of_ne_zero hv0)) hU
      have hdirection := (IsDirection.arctan hvpos (u / unitsPerOne)).signed back negative
      rw [div_div_div_cancel_right₀ hU.ne'] at hdirection
      obtain ⟨hfinite, hnear⟩ := abs_angleOf_sub_le negative back hu0 hv0
      exact ⟨hfinite, _, IsDirection.abs_signed_le (Real.arctan_nonneg.mpr (by positivity))
        (by linarith [Real.arctan_lt_pi_div_two ((u : ℝ) / v)]) back negative, hdirection, hnear⟩

end Binary64

end Swatch
