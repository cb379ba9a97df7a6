import Mathlib.Analysis.Convex.SpecificFunctions.Basic
import Swatch.Proofs.Binary64.Error
import Swatch.Proofs.Color.Light
/-!
The companding of light, and how far it carries an error.

The responses of the cones are cube roots of light, so an error is given relative to such a root:
light that is off by a small part of the square of its root is off by less than one byte.

* `companded`: the companding in exact arithmetic, with the threshold and the exponent as they are
  rounded (`toe`, `gamma`).
* `abs_companded_sub_le`: near lights are less than one byte apart.
* `exists_byteOfLinear`: the byte that is computed is within rounding of the exact one.
* `byteOfLinear_mem`: so even infinite light has a byte of the range, if it has one.
* `exists_byteOfLinear_near`: near lights have bytes that differ by at most one.
* `exists_linearOfByte`: the light of a channel that is not zero is not tiny.
-/

namespace Swatch

open Binary64

/-! ### Powers of nearby numbers -/

/-- A power with an exponent of at most one is concave. -/
lemma rpow_sub_rpow_le {x y e : ℝ} (hx : 0 < x) (hxy : x ≤ y) (he : 0 ≤ e) (he1 : e ≤ 1) :
    y ^ e - x ^ e ≤ e * x ^ e * ((y - x) / x) := by
  have hratio : 0 ≤ (y - x) / x := div_nonneg (sub_nonneg.mpr hxy) hx.le
  have hy : y = x * (1 + (y - x) / x) := by
    field_simp
    ring
  have hpart := rpow_one_add_le_one_add_mul_self (by linarith : -1 ≤ (y - x) / x) he he1
  have hpower : 0 ≤ x ^ e := Real.rpow_nonneg hx.le e
  calc y ^ e - x ^ e = x ^ e * (1 + (y - x) / x) ^ e - x ^ e := by
        rw [← Real.mul_rpow hx.le (by linarith), ← hy]
    _ ≤ x ^ e * (1 + e * ((y - x) / x)) - x ^ e :=
        sub_le_sub_right (mul_le_mul_of_nonneg_left hpart hpower) _
    _ = e * x ^ e * ((y - x) / x) := by ring

/-- A smaller exponent enlarges the power of a number below one by little. -/
lemma rpow_le_rpow_add_div {x a b h : ℝ} (hx : 0 < x) (hx1 : x ≤ 1) (hb : 0 ≤ b) (hab : b - a ≤ h)
    (h0 : 0 ≤ h) (h1 : h ≤ 1) : x ^ a ≤ x ^ b + h / x := by
  have hpart := rpow_one_add_le_one_add_mul_self (s := x⁻¹ - 1) (p := h)
    (by linarith [inv_pos.mpr hx]) h0 h1
  have hpower : 0 ≤ x ^ b := Real.rpow_nonneg hx.le b
  have hpower1 : x ^ b ≤ 1 := Real.rpow_le_one hx.le hx1 hb
  rw [add_sub_cancel] at hpart
  calc x ^ a ≤ x ^ (b - h) := Real.rpow_le_rpow_of_exponent_ge hx hx1 (by linarith)
    _ = x ^ b * x⁻¹ ^ h := by
        rw [Real.rpow_sub hx, Real.inv_rpow hx.le, div_eq_mul_inv]
    _ ≤ x ^ b * (1 + h * (x⁻¹ - 1)) := mul_le_mul_of_nonneg_left hpart hpower
    _ ≤ x ^ b + h / x := by
        have hscale : 0 ≤ h * x⁻¹ := mul_nonneg h0 (inv_pos.mpr hx).le
        rw [div_eq_mul_inv]
        nlinarith

/-! ### The companding -/

/-- The light up to which the companding is a straight line, as it is rounded. -/
noncomputable def toe : ℝ := ((0.0031308 : Binary64).value : ℝ)

/-- The exponent of the companding, as it is rounded. -/
noncomputable def gamma : ℝ := ((1 / 2.4 : Binary64).value : ℝ)

/-- A channel of light between zero and one, from zero to one, in exact arithmetic. -/
noncomputable def companded (v : ℝ) : ℝ :=
  if v ≤ toe then 12.92 * v else 1.055 * v ^ gamma - 0.055

lemma near_toe : Near 1 0.0031308 (0.0031308 : Binary64) := near_ofScientific (by norm_num)

lemma near_gamma : Near 2 (5 / 12) (1 / 2.4 : Binary64) := by
  have hdivisor : Near 1 2.4 (2.4 : Binary64) := near_ofScientific (by norm_num)
  have hone : (1 : ℚ) ≤ (1 : Nat) * (2.4 : Binary64).value := by
    have := (abs_le.mp (hdivisor.abs_sub_le_of_le (by norm_num))).1
    push_cast
    norm_num at this ⊢
    linarith
  have h := near_one.div hdivisor (by norm_num) hone (by norm_num)
  norm_num at h ⊢
  exact h

lemma toe_mem : 0.00313 ≤ toe ∧ toe ≤ 0.003131 := by
  have h := abs_le.mp near_toe.abs_sub_le_real
  rw [toe]
  push_cast at h
  constructor <;> linarith [h.1, h.2]

lemma abs_gamma_sub_le : |gamma - 5 / 12| ≤ 1 / 10 ^ 9 := by
  have h := near_gamma.abs_sub_le_real
  push_cast at h
  exact h.trans (by norm_num)

lemma gamma_mem : 0.4166 ≤ gamma ∧ gamma ≤ 0.4167 := by
  have h := abs_le.mp abs_gamma_sub_le
  constructor <;> linarith [h.1, h.2]

/-- The power of the companding at its threshold. -/
lemma toe_rpow_gamma_mem : 0.09044 ≤ toe ^ gamma ∧ toe ^ gamma ≤ 0.0905 := by
  obtain ⟨hlow, hhigh⟩ := toe_mem
  have hpos : 0 < toe := by linarith
  have hgamma := abs_le.mp abs_gamma_sub_le
  set w := toe ^ ((5 : ℝ) / 12) with hw
  have hw0 : 0 ≤ w := Real.rpow_nonneg hpos.le _
  have hpow : w ^ 12 = toe ^ 5 := by
    rw [hw, ← Real.rpow_natCast, ← Real.rpow_mul hpos.le, ← Real.rpow_natCast]
    norm_num
  have hwlow : 0.09045 ≤ w := by
    refine (pow_le_pow_iff_left₀ (by norm_num) hw0 (by norm_num : 12 ≠ 0)).mp ?_
    rw [hpow]
    exact le_trans (by norm_num) (pow_le_pow_left₀ (by norm_num) hlow 5)
  have hwhigh : w ≤ 0.09049 := by
    refine (pow_le_pow_iff_left₀ hw0 (by norm_num) (by norm_num : 12 ≠ 0)).mp ?_
    rw [hpow]
    exact (pow_le_pow_left₀ hpos.le hhigh 5).trans (by norm_num)
  have hloss : 1 / 10 ^ 9 / toe ≤ 0.00001 := by
    rw [div_le_iff₀ hpos]
    linarith
  have hbelow := rpow_le_rpow_add_div (a := 5 / 12) (b := gamma) (h := 1 / 10 ^ 9) hpos
    (by linarith) (by linarith) (by linarith) (by norm_num) (by norm_num)
  have habove := rpow_le_rpow_add_div (a := gamma) (b := 5 / 12) (h := 1 / 10 ^ 9) hpos
    (by linarith) (by norm_num) (by linarith) (by norm_num) (by norm_num)
  constructor <;> linarith

/-- Above the threshold the companding is concave. -/
lemma companded_sub_of_toe_lt {x y : ℝ} (hx : toe < x) (hxy : x ≤ y) :
    0 ≤ companded y - companded x ∧
      companded y - companded x ≤ 1.055 * (gamma * x ^ gamma * ((y - x) / x)) := by
  have hpos : 0 < x := by linarith [toe_mem.1]
  have hgamma := gamma_mem
  have hmono := Real.rpow_le_rpow hpos.le hxy (by linarith : 0 ≤ gamma)
  have hconcave := rpow_sub_rpow_le hpos hxy (by linarith : 0 ≤ gamma) (by linarith)
  rw [companded, companded, if_neg (not_le.mpr hx), if_neg (not_le.mpr (hx.trans_le hxy))]
  constructor <;> linarith

/-- From a light up to the threshold, the companding climbs no faster than the straight line, but
for a step that the rounded threshold leaves. -/
lemma companded_sub_of_le_toe {x y : ℝ} (hx : x ≤ toe) (hxy : x ≤ y) :
    |companded y - companded x| ≤ 12.92 * (y - x) + 1 / 10 ^ 4 := by
  rcases le_or_gt y toe with hy | hy
  · rw [companded, companded, if_pos hx, if_pos hy, ← mul_sub, abs_of_nonneg (by linarith)]
    linarith
  · obtain ⟨hlow, hhigh⟩ := toe_mem
    obtain ⟨hplow, hphigh⟩ := toe_rpow_gamma_mem
    obtain ⟨hglow, hghigh⟩ := gamma_mem
    have hpos : 0 < toe := by linarith
    have hmono := Real.rpow_le_rpow hpos.le hy.le (by linarith : 0 ≤ gamma)
    have hconcave := rpow_sub_rpow_le hpos hy.le (by linarith : 0 ≤ gamma) (by linarith)
    -- at the threshold the power is no steeper than the line
    have hslope : 1.055 * (gamma * toe ^ gamma * ((y - toe) / toe)) ≤ 12.92 * (y - toe) := by
      have hproduct : gamma * toe ^ gamma ≤ 0.4167 * 0.0905 :=
        mul_le_mul hghigh hphigh (Real.rpow_nonneg hpos.le _) (by norm_num)
      rw [mul_div_assoc', mul_div_assoc', div_le_iff₀ hpos]
      nlinarith
    rw [companded, companded, if_pos hx, if_neg (not_le.mpr hy), abs_le]
    constructor <;> linarith

/-- Lights that are near to each other, one below and one above the cube of a response, give bytes
that are less than one apart. -/
lemma abs_companded_sub_le_of_mem {x y t : ℝ} (ht : 0 ≤ t) (ht1 : t ≤ 1) (hx : x ≤ t ^ 3)
    (hy : t ^ 3 ≤ y) (h : y - x ≤ (t + 1 / 500) ^ 2 / 160) :
    255 * |companded y - companded x| ≤ 9 / 10 := by
  obtain ⟨hlow, hhigh⟩ := toe_mem
  rcases le_or_gt x toe with hxt | hxt
  · -- near the straight line the response is small
    have hsmall : t < 0.16 := by
      by_contra hge
      have hge' : 0.16 ≤ t := not_lt.mp hge
      have hsquare : (t + 1 / 500) ^ 2 ≤ 1.026 * t ^ 2 := by nlinarith
      have hcube : 0.16 * t ^ 2 ≤ t ^ 3 := by nlinarith [sq_nonneg t]
      nlinarith
    have hsquare : (t + 1 / 500) ^ 2 ≤ 0.162 ^ 2 := pow_le_pow_left₀ (by linarith) (by linarith) 2
    have hsteps := companded_sub_of_le_toe hxt (hx.trans hy)
    linarith
  · obtain ⟨hglow, hghigh⟩ := gamma_mem
    have hpos : 0 < x := by linarith
    have hlarge : 0.146 ≤ t := by
      by_contra hlt
      have hcube := pow_le_pow_left₀ ht (not_le.mp hlt).le 3
      linarith
    have htpos : 0 < t := by linarith
    have hstep : y - x ≤ 0.00643 * t ^ 2 := by
      have hsquare : (t + 1 / 500) ^ 2 ≤ 1.0276 * t ^ 2 := by nlinarith
      linarith
    have hbase : 0.955 * t ^ 3 ≤ x := by
      have hcube : 0.146 * t ^ 2 ≤ t ^ 3 := by nlinarith [sq_nonneg t]
      linarith
    have hpower : x ^ gamma ≤ t := by
      have hone : t ^ 3 ≤ 1 := pow_le_one₀ ht ht1
      calc x ^ gamma ≤ (t ^ 3) ^ gamma := Real.rpow_le_rpow hpos.le hx (by linarith)
        _ ≤ (t ^ 3) ^ ((3 : ℕ) : ℝ)⁻¹ :=
            Real.rpow_le_rpow_of_exponent_ge (by positivity) hone (by norm_num; linarith)
        _ = t := Real.pow_rpow_inv_natCast ht three_ne_zero
    have hratio : (y - x) / x ≤ 0.00674 / t := by
      rw [div_le_div_iff₀ hpos htpos]
      calc (y - x) * t ≤ 0.00643 * t ^ 2 * t := mul_le_mul_of_nonneg_right hstep ht
        _ ≤ 0.00674 * (0.955 * t ^ 3) := by nlinarith [pow_pos htpos 3]
        _ ≤ 0.00674 * x := mul_le_mul_of_nonneg_left hbase (by norm_num)
    obtain ⟨hnonneg, hle⟩ := companded_sub_of_toe_lt hxt (hx.trans hy)
    have hproduct : gamma * x ^ gamma * ((y - x) / x) ≤ 0.4167 * t * (0.00674 / t) :=
      mul_le_mul (mul_le_mul hghigh hpower (Real.rpow_nonneg hpos.le _) (by norm_num)) hratio
        (div_nonneg (by linarith) hpos.le) (by positivity)
    have hcancel : 0.4167 * t * (0.00674 / t) = 0.4167 * 0.00674 := by
      field_simp
    rw [abs_of_nonneg hnonneg]
    linarith

/-- The bytes of lights that are near to each other are less than one apart. -/
theorem abs_companded_sub_le {q t : ℝ} (ht : 0 ≤ t) (ht1 : t ≤ 1)
    (h : |q - t ^ 3| ≤ (t + 1 / 500) ^ 2 / 160) :
    255 * |companded q - companded (t ^ 3)| ≤ 9 / 10 := by
  rcases le_total q (t ^ 3) with hle | hle
  · rw [abs_sub_comm, abs_of_nonneg (sub_nonneg.mpr hle)] at h
    rw [abs_sub_comm]
    exact abs_companded_sub_le_of_mem ht ht1 hle le_rfl h
  · rw [abs_of_nonneg (sub_nonneg.mpr hle)] at h
    exact abs_companded_sub_le_of_mem ht ht1 le_rfl hle h

/-! ### The bytes of light -/

/-- Light that is held between zero and one. -/
noncomputable def clampLight (v : ℝ) : ℝ := max 0 (min 1 v)

lemma clampLight_mem (v : ℝ) : 0 ≤ clampLight v ∧ clampLight v ≤ 1 :=
  ⟨le_max_left _ _, max_le zero_le_one (min_le_left _ _)⟩

lemma abs_clampLight_sub_le (v w : ℝ) : |clampLight v - clampLight w| ≤ |v - w| := by
  have hmin := abs_min_sub_min_le_max 1 v 1 w
  rw [sub_self, abs_zero, max_eq_right (abs_nonneg (v - w))] at hmin
  have hmax := abs_max_sub_max_le_max 0 (min 1 v) 0 (min 1 w)
  rw [sub_self, abs_zero, max_eq_right (abs_nonneg (min 1 v - min 1 w))] at hmax
  exact hmax.trans hmin

/-- A number is clamped as its value is. -/
lemma value_clamp_eq {c : Binary64} (hc : c.isFinite = true) :
    Between 0 1 (c.clamp 0 1) ∧ ((c.clamp 0 1).value : ℝ) = clampLight c.value := by
  have hzero : (0 : Binary64).isFinite = true := isFinite_ofNat (by norm_num)
  have hone : (1 : Binary64).isFinite = true := isFinite_ofNat (by norm_num)
  have hmin := isFinite_min hone hc
  have hvalue : (c.clamp 0 1).value = max 0 (min 1 c.value) := by
    rw [clamp, value_max hzero hmin, value_min hone hc, value_ofNat (by norm_num),
      value_ofNat (by norm_num), Nat.cast_zero, Nat.cast_one]
  refine ⟨⟨isFinite_max hzero hmin, ?_, ?_⟩, ?_⟩
  · rw [hvalue]
    exact le_max_left _ _
  · rw [hvalue]
    exact max_le zero_le_one (min_le_left _ _)
  · rw [hvalue, clampLight]
    push_cast
    rfl

/-- The byte of a number between zero and one. -/
lemma exists_byte {k : Nat} {q : ℚ} {s : Binary64} (hs : Near k q s) (hk : k ≤ 1000)
    (hq : |q| ≤ 1) : ∃ n : ℤ, (s * 255).roundHalfUp = .ok n ∧
      |(n : ℝ) - 255 * q| ≤ 1 / 2 + 1 / 2 ^ 21 := by
  have hscaled := hs.mul (k := 1) (l := 255) (near_ofNat (n := 255) (by norm_num))
    (by simpa using hq) (by norm_num) (by omega) (by norm_num) (by omega) (by norm_num)
  obtain ⟨n, hn, hlow, hhigh⟩ := exists_nearest_int hscaled.isFinite
  have herror := abs_le.mp ((hscaled.mono (by omega : _ ≤ 2 ^ (18 : Nat))).abs_sub_le)
  rw [roundoff] at herror
  push_cast at herror
  have hnear : |(n : ℚ) - 255 * q| ≤ 1 / 2 + 1 / 2 ^ 21 := by
    rw [abs_le]
    constructor <;> linarith [herror.1, herror.2]
  refine ⟨n, hn, ?_⟩
  have hreal := Rat.cast_le (K := ℝ).mpr hnear
  push_cast at hreal
  exact hreal

section Branches

variable {v : Binary64} (hv : Between 0 1 v)

include hv

/-- The byte of light on the straight line. -/
lemma exists_byte_of_le_toe (hline : (v.value : ℝ) ≤ toe) :
    ∃ n : ℤ, (12.92 * v * 255).roundHalfUp = .ok n ∧
      |(n : ℝ) - 255 * companded v.value| ≤ 1 / 2 + 1 / 2 ^ 20 := by
  have hslope : Near 1 12.92 (12.92 : Binary64) := near_ofScientific (by norm_num)
  have hsmall : v.value ≤ 0.003131 := by
    have hcast : (v.value : ℝ) ≤ ((0.003131 : ℚ) : ℝ) := by
      push_cast
      linarith [toe_mem.2]
    exact_mod_cast hcast
  have hproduct : Near 3 (12.92 * v.value) (12.92 * v) :=
    hslope.mul (k := 13) (l := 1) (near_self hv.isFinite) (by norm_num)
      (abs_le.mpr ⟨by push_cast; linarith [hv.le_value], by push_cast; exact hv.value_le⟩)
      (by norm_num) (by norm_num) (by norm_num) (by norm_num)
  obtain ⟨n, hn, hnear⟩ := exists_byte hproduct (by norm_num)
    (abs_le.mpr ⟨by linarith [hv.le_value], by linarith⟩)
  refine ⟨n, hn, ?_⟩
  rw [companded, if_pos hline]
  push_cast at hnear
  exact hnear.trans (by norm_num)

/-- The byte of light above the straight line. -/
lemma exists_byte_of_toe_lt [Elementary] [Elementary.IsAccurate] (hcurve : toe < v.value) :
    ∃ n : ℤ, ((1.055 * Elementary.pow v (1 / 2.4) - 0.055) * 255).roundHalfUp = .ok n ∧
      |(n : ℝ) - 255 * companded v.value| ≤ 1 / 2 + 1 / 2 ^ 20 := by
  have hlarge : 0.00313 ≤ v.value := by
    have hcast : ((0.00313 : ℚ) : ℝ) ≤ v.value := by
      push_cast
      linarith [toe_mem.1]
    exact_mod_cast hcast
  have hgamma : 0 < (1 / 2.4 : Binary64).value := by
    have hpos : 0 < gamma := by linarith [gamma_mem.1]
    rw [gamma] at hpos
    exact_mod_cast hpos
  have hbase : Between (1 / 1024) 1 v := ⟨hv.isFinite, by linarith, hv.value_le⟩
  have hpower := Elementary.IsAccurate.between_pow hbase hgamma
  have hexact := (Elementary.IsAccurate.pow hbase hgamma).abs_sub_le
  rw [← gamma] at hexact
  set power := Elementary.pow v (1 / 2.4)
  have hscale : Near 1 1.055 (1.055 : Binary64) := near_ofScientific (by norm_num)
  have hoffset : Near 1 0.055 (0.055 : Binary64) := near_ofScientific (by norm_num)
  have hproduct : Near 3 (1.055 * power.value) (1.055 * power) :=
    hscale.mul (k := 2) (l := 1) (near_self hpower.isFinite) (by norm_num)
      (abs_le.mpr ⟨by push_cast; linarith [hpower.le_value], by
        push_cast
        exact hpower.value_le⟩) (by norm_num) (by norm_num) (by norm_num) (by norm_num)
  have hsum : Near 5 (1.055 * power.value - 0.055) (1.055 * power - 0.055) :=
    hproduct.sub hoffset (by norm_num)
      (abs_le.mpr ⟨by linarith [hpower.le_value], by linarith [hpower.value_le]⟩)
  obtain ⟨n, hn, hnear⟩ := exists_byte hsum (by norm_num)
    (abs_le.mpr ⟨by linarith [hpower.le_value], by linarith [hpower.value_le]⟩)
  refine ⟨n, hn, ?_⟩
  rw [companded, if_neg (not_le.mpr hcurve)]
  push_cast at hnear
  rw [abs_le] at hnear hexact ⊢
  constructor <;> linarith [hnear.1, hnear.2, hexact.1, hexact.2]

end Branches

/-- Light between zero and one is companded to between zero and one. -/
lemma companded_mem {v : ℝ} (hv : 0 ≤ v) (hv1 : v ≤ 1) : 0 ≤ companded v ∧ companded v ≤ 1 := by
  obtain ⟨htoe, htoe'⟩ := toe_mem
  rw [companded]
  split_ifs with hline
  · constructor <;> linarith
  · have hgamma := gamma_mem.1
    have hlow := Real.rpow_le_rpow (by linarith) (not_le.mp hline).le (by linarith : 0 ≤ gamma)
    have hhigh := Real.rpow_le_one hv hv1 (by linarith : 0 ≤ gamma)
    have hpower := toe_rpow_gamma_mem.1
    constructor <;> linarith

/-- Infinite light is clamped as light at the ends of the range is. -/
lemma clamp_infinity (negative : Bool) :
    clamp (.infinity negative) 0 1 = clamp (if negative then 0 else 1) 0 1 := by
  cases negative <;> decide +kernel

section Bytes

variable [Elementary] [Elementary.IsAccurate]

/-- The byte of a channel of light is at most half a byte from the exact one, but for the errors of
rounding. -/
lemma exists_byteOfLinear_sub_le {c : Binary64} (hc : c.isFinite = true) :
    ∃ n : ℤ, byteOfLinear c = .ok n ∧
      |(n : ℝ) - 255 * companded (clampLight c.value)| ≤ 1 / 2 + 1 / 2 ^ 20 := by
  have hnan : c.isNaN = false := by
    obtain ⟨negative, units, hgrid, rfl⟩ := exists_finite hc
    rfl
  obtain ⟨hv, hvalue⟩ := value_clamp_eq hc
  rw [byteOfLinear, hnan, if_neg Bool.false_ne_true, ← hvalue]
  set v := c.clamp 0 1
  simp only
  have hcases : v ≤ 0.0031308 ↔ (v.value : ℝ) ≤ toe := by
    rw [le_iff hv.isFinite near_toe.isFinite, toe, Rat.cast_le]
  by_cases hline : (v.value : ℝ) ≤ toe
  · rw [if_pos (hcases.mpr hline)]
    exact exists_byte_of_le_toe hv hline
  · rw [if_neg (fun h => hline (hcases.mp h))]
    exact exists_byte_of_toe_lt hv (not_le.mp hline)

/-- The byte of a channel of light, and the exact one. -/
theorem exists_byteOfLinear {c : Binary64} (hc : c.isFinite = true) :
    ∃ n : ℤ, byteOfLinear c = .ok n ∧ (0 ≤ n ∧ n ≤ 255) ∧
      |(n : ℝ) - 255 * companded (clampLight c.value)| ≤ 1 / 2 + 1 / 2 ^ 20 := by
  obtain ⟨n, hn, hnear⟩ := exists_byteOfLinear_sub_le hc
  obtain ⟨hlight, hlight'⟩ := clampLight_mem c.value
  obtain ⟨hlow, hhigh⟩ := companded_mem hlight hlight'
  refine ⟨n, hn, ⟨?_, ?_⟩, hnear⟩
  · have hlt : ((-1 : ℤ) : ℝ) < n := by
      push_cast
      linarith [(abs_le.mp hnear).1]
    have hlt' : -1 < n := Int.cast_lt.mp hlt
    omega
  · have hlt : (n : ℝ) < ((256 : ℤ) : ℝ) := by
      push_cast
      linarith [(abs_le.mp hnear).2]
    have hlt' : n < 256 := Int.cast_lt.mp hlt
    omega

/-- All light that has a byte, infinite light included, has one of the range. -/
theorem byteOfLinear_mem {c : Binary64} {n : ℤ} (h : byteOfLinear c = .ok n) :
    0 ≤ n ∧ n ≤ 255 := by
  have hmem {d : Binary64} (hd : d.isFinite = true) (h : byteOfLinear d = .ok n) :
      0 ≤ n ∧ n ≤ 255 := by
    obtain ⟨m, hm, hbyte, -⟩ := exists_byteOfLinear hd
    rw [hm, Except.ok.injEq] at h
    rwa [← h]
  cases c with
  | nan => exact absurd h (by simp [byteOfLinear, isNaN])
  | finite negative units hgrid => exact hmem rfl h
  | infinity negative =>
      obtain ⟨d, hd, hfinite⟩ : ∃ d, d = (if negative then (0 : Binary64) else 1)
          ∧ d.isFinite = true := by
        refine ⟨_, rfl, ?_⟩
        cases negative <;> exact isFinite_ofNat (by norm_num)
      refine hmem hfinite ?_
      have hnan : d.isNaN = false := by
        obtain ⟨_, _, _, rfl⟩ := exists_finite hfinite
        rfl
      rw [byteOfLinear, clamp_infinity, ← hd] at h
      rw [byteOfLinear, hnan]
      exact h

/-- Near lights have near bytes: light that differs from the cube of a response by little gives a
byte that differs by at most one. -/
theorem exists_byteOfLinear_near {c d : Binary64} (hc : c.isFinite = true)
    (hd : d.isFinite = true) {t : ℝ} (ht : 0 ≤ t) (ht1 : t ≤ 1.03) (hct : (c.value : ℝ) = t ^ 3)
    (h : |(d.value : ℝ) - c.value| ≤ (t + 1 / 500) ^ 2 / 180) :
    ∃ m n : ℤ, byteOfLinear c = .ok m ∧ byteOfLinear d = .ok n ∧ (0 ≤ n ∧ n ≤ 255) ∧
      |n - m| ≤ 1 := by
  obtain ⟨m, hm, -, hmnear⟩ := exists_byteOfLinear hc
  obtain ⟨n, hn, hmem, hnnear⟩ := exists_byteOfLinear hd
  refine ⟨m, n, hm, hn, hmem, ?_⟩
  -- light above one is clamped, and so is its response
  set t' := min 1 t with ht'
  have ht'0 : 0 ≤ t' := le_min zero_le_one ht
  have hscale : t ≤ 1.03 * t' := by
    rcases le_total 1 t with hle | hle
    · rw [ht', min_eq_left hle]
      linarith
    · rw [ht', min_eq_right hle]
      linarith
  have hclamp : clampLight c.value = t' ^ 3 := by
    rw [clampLight, hct]
    rcases le_total 1 t with hle | hle
    · rw [ht', min_eq_left hle, min_eq_left (one_le_pow₀ hle), one_pow, max_eq_right zero_le_one]
    · rw [ht', min_eq_right hle, min_eq_right (pow_le_one₀ ht hle), max_eq_right (by positivity)]
  have hmoved : |clampLight d.value - t' ^ 3| ≤ (t' + 1 / 500) ^ 2 / 160 := by
    rw [← hclamp]
    refine ((abs_clampLight_sub_le _ _).trans h).trans ?_
    have hsquare : (t + 1 / 500) ^ 2 ≤ (1.03 * (t' + 1 / 500)) ^ 2 :=
      pow_le_pow_left₀ (by linarith) (by linarith) 2
    rw [mul_pow] at hsquare
    linarith [sq_nonneg (t' + 1 / 500)]
  have hbytes := abs_companded_sub_le ht'0 (min_le_left _ _) hmoved
  rw [← hclamp, ← abs_of_pos (by norm_num : (0 : ℝ) < 255), ← abs_mul] at hbytes
  have hlt : |((n - m : ℤ) : ℝ)| < 2 := by
    push_cast
    rw [abs_le] at hbytes hmnear hnnear
    rw [abs_lt]
    constructor <;> linarith [hbytes.1, hbytes.2, hmnear.1, hmnear.2, hnnear.1, hnnear.2]
  have hlt' : |n - m| < 2 := by exact_mod_cast hlt
  omega

end Bytes

/-! ### The light of bytes -/

/-- On the straight line, light that is not tiny comes of a channel that is not. -/
lemma le_value_line {v : Binary64} (hv : Between (1 / 256) 1 v) :
    1 / 2 ^ 19 ≤ (v / 12.92).value := by
  have hslope : Near 1 12.92 (12.92 : Binary64) := near_ofScientific (by norm_num)
  have hdivisor := abs_le.mp (hslope.abs_sub_le_of_le (by norm_num))
  have hpos : 0 < (12.92 : Binary64).value := by linarith [hdivisor.1]
  have hquotient : 1 / 2 ^ 18 ≤ v.value / (12.92 : Binary64).value := by
    rw [le_div_iff₀ hpos]
    linarith [hdivisor.2, hv.le_value]
  have hone : v.value / (12.92 : Binary64).value ≤ 1 := by
    rw [div_le_one hpos]
    linarith [hdivisor.1, hv.value_le]
  have hround := (isRounded_div hv.isFinite hslope.isFinite hpos.ne').near (k := 0)
    (q := v.value / (12.92 : Binary64).value) (by simp) (by norm_num)
    (abs_le.mpr ⟨by linarith, by linarith⟩)
  have herror := (abs_le.mp hround.abs_sub_le).1
  norm_num [roundoff] at herror ⊢
  linarith

section Light

variable [Elementary] [Elementary.IsAccurate]

/-- The power of a base that is not tiny is not tiny either, as its exponent is below three. -/
lemma le_value_power {base : Binary64} (hbase : Between (1 / 2 ^ 6) 1 base) :
    1 / 2 ^ 19 ≤ (Elementary.pow base 2.4).value := by
  have hexponent : Near 1 2.4 (2.4 : Binary64) := near_ofScientific (by norm_num)
  have hexact := abs_le.mp (hexponent.abs_sub_le_of_le (by norm_num))
  have hpower := (Elementary.IsAccurate.pow (hbase.mono (by norm_num) le_rfl)
    (by linarith [hexact.1] : 0 < (2.4 : Binary64).value)).abs_sub_le
  have hlow : ((1 / 2 ^ 6 : ℚ) : ℝ) ≤ base.value := Rat.cast_le.mpr hbase.le_value
  have hhigh : (base.value : ℝ) ≤ 1 := by exact_mod_cast hbase.value_le
  have hthree : ((2.4 : Binary64).value : ℝ) ≤ 3 := by
    have hle : (2.4 : Binary64).value ≤ 3 := by linarith [hexact.2]
    exact_mod_cast hle
  push_cast at hlow
  have hcube : (1 / 2 ^ 6 : ℝ) ^ 3 ≤ (base.value : ℝ) ^ ((2.4 : Binary64).value : ℝ) :=
    calc (1 / 2 ^ 6 : ℝ) ^ 3 ≤ (base.value : ℝ) ^ 3 := pow_le_pow_left₀ (by norm_num) hlow 3
      _ = (base.value : ℝ) ^ (3 : ℝ) := by rw [← Real.rpow_natCast]; norm_num
      _ ≤ _ := Real.rpow_le_rpow_of_exponent_ge (by linarith) hhigh hthree
  have hreal : ((1 / 2 ^ 19 : ℚ) : ℝ) ≤ (Elementary.pow base 2.4).value := by
    have herror := (abs_le.mp hpower).1
    push_cast
    linarith
  exact_mod_cast hreal

/-- The light of a channel of one or more is not tiny. -/
theorem exists_linearOfByte {c : Binary64} (hc : Between 1 255 c) :
    ∃ x, linearOfByte c = .ok x ∧ Between (1 / 2 ^ 19) 1 x := by
  obtain ⟨x, hx, hmem⟩ := linearOfByte_spec (hc.mono zero_le_one le_rfl)
  refine ⟨x, hx, hmem.isFinite, ?_, hmem.value_le⟩
  have hv : Between 0 1 (c / 255) :=
    Between.div_ofNat (by exact_mod_cast hc.mono zero_le_one le_rfl) (by norm_num) (by norm_num)
  have hlow : 1 / 256 ≤ (c / 255).value := by
    have hnear := (near_self hc.isFinite).div_ofNat (n := 255) (by norm_num) (by norm_num)
      (by norm_num) (abs_le.mpr ⟨by linarith [hc.le_value], by linarith [hc.value_le]⟩)
    have herror := (abs_le.mp (hnear.abs_sub_le_of_le (by norm_num))).1
    push_cast at herror
    linarith [hc.le_value]
  rw [linearOfByte] at hx
  simp only at hx
  split_ifs at hx with hline hlarge
  · rw [← Except.ok.inj hx]
    exact le_value_line ⟨hv.isFinite, hlow, hv.value_le⟩
  · rw [← Except.ok.inj hx]
    exact le_value_power (base_spec hv)

end Light

end Swatch
