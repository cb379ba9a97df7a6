import Mathlib.Analysis.Real.Pi.Bounds
import Mathlib.Analysis.SpecialFunctions.Trigonometric.Bounds
import Swatch.Proofs.Color.OklabError
/-!
Polar coordinates as they are computed.

* `Oklab.chroma_spec`, `Oklab.hue_spec`: the chroma is near the distance from the origin, and the
  hue near an angle in whose direction the point lies.
* `Oklch.toOklab_spec`: polar coordinates that are off by what rounding to few decimals costs give
  back a point near the one they were taken of.
-/

namespace Swatch

open Binary64

lemma IsDirection.add_turn {x y φ : ℝ} (h : IsDirection x y φ) :
    IsDirection x y (φ + 2 * Real.pi) := by
  rw [IsDirection, Real.cos_add_two_pi, Real.sin_add_two_pi]
  exact h

/-! ### To polar coordinates -/

/-- The rounded half turn. -/
lemma nearWithin_pi : NearWithin 1 4 3.141592653589793 pi :=
  nearWithin_ofScientific (by norm_num) (by norm_num)

lemma abs_pi_sub_le : |(pi.value : ℝ) - Real.pi| ≤ 2 / 2 ^ 40 := by
  have h := nearWithin_pi.near.abs_sub_le_real
  have hlow := Real.pi_gt_d20
  have hhigh := Real.pi_lt_d20
  rw [abs_le] at h ⊢
  push_cast at h
  constructor <;> linarith [h.1, h.2]

lemma pi_value_mem : 3.14 ≤ pi.value ∧ pi.value ≤ 3.15 := by
  have h := abs_le.mp (nearWithin_pi.near.abs_sub_le_of_le (by norm_num))
  constructor <;> linarith [h.1, h.2]

lemma nearWithin_degrees : NearWithin 1 58 (180 / pi.value) (180 / pi) := by
  have hpi := pi_value_mem
  have h180 : (OfNat.ofNat 180 : Binary64).value = 180 := by
    exact_mod_cast value_ofNat (n := 180) (by norm_num)
  have hround := isRounded_div (x := 180) (y := pi) (isFinite_ofNat (by norm_num))
    nearWithin_pi.near.isFinite (by linarith)
  rw [h180] at hround
  have habs : |180 / pi.value| ≤ (58 : Nat) := by
    rw [abs_of_nonneg (div_nonneg (by norm_num) (by linarith)), div_le_iff₀ (by linarith)]
    push_cast
    linarith
  exact ⟨hround.near (k := 0) (by simp) (by norm_num) (habs.trans (by norm_num)), habs⟩

lemma nearWithin_radians : NearWithin 1 1 (pi.value / 180) (pi / 180) := by
  have hpi := pi_value_mem
  have habs : |pi.value| ≤ 4 := abs_le.mpr ⟨by linarith, by linarith⟩
  refine ⟨(near_self nearWithin_pi.near.isFinite).div_ofNat (n := 180) (by norm_num) (by norm_num)
    (by norm_num) (habs.trans (by norm_num)), ?_⟩
  rw [abs_of_nonneg (by linarith), div_le_iff₀ (by norm_num)]
  push_cast
  linarith

/-- An angle in degrees by the rounded half turn, and back by the exact one. -/
lemma abs_degrees_sub_le {t : ℝ} (ht : |t| ≤ 4) :
    |t * (180 / pi.value) * (Real.pi / 180) - t| ≤ 4 / 10 ^ 10 := by
  have hhalf := abs_pi_sub_le
  have hpi : (3.14 : ℝ) ≤ pi.value := by
    have h : ((3.14 : ℚ) : ℝ) ≤ pi.value := Rat.cast_le.mpr pi_value_mem.1
    push_cast at h
    exact h
  have hsplit : t * (180 / pi.value) * (Real.pi / 180) - t
      = t * ((Real.pi - pi.value) / pi.value) := by
    field_simp
  have hratio : |(Real.pi - pi.value) / pi.value| ≤ 1 / 10 ^ 10 := by
    rw [abs_div, abs_of_pos (by linarith : (0 : ℝ) < pi.value), abs_sub_comm,
      div_le_iff₀ (by linarith)]
    linarith
  rw [hsplit, abs_mul]
  calc |t| * |(Real.pi - pi.value) / pi.value| ≤ 4 * (1 / 10 ^ 10) :=
        mul_le_mul ht hratio (abs_nonneg _) (by norm_num)
    _ = 4 / 10 ^ 10 := by norm_num

/-- Square roots are apart by no more than the root of what their squares are apart by. -/
lemma abs_sqrt_sub_sqrt_le {u v δ : ℝ} (hu : 0 ≤ u) (hv : 0 ≤ v) (hδ : 0 ≤ δ)
    (h : |u - v| ≤ δ ^ 2) : |√u - √v| ≤ δ := by
  refine abs_le_of_sq_le_sq ?_ hδ
  have hsum : |√u - √v| ≤ √u + √v :=
    abs_le.mpr ⟨by linarith [Real.sqrt_nonneg u], by linarith [Real.sqrt_nonneg v]⟩
  calc (√u - √v) ^ 2 = |√u - √v| * |√u - √v| := by rw [← sq, sq_abs]
    _ ≤ |√u - √v| * (√u + √v) := mul_le_mul_of_nonneg_left hsum (abs_nonneg _)
    _ = |(√u - √v) * (√u + √v)| := by
        rw [abs_mul, abs_of_nonneg (by positivity : 0 ≤ √u + √v)]
    _ = |u - v| := by
        rw [mul_comm, ← sq_sub_sq, Real.sq_sqrt hu, Real.sq_sqrt hv]
    _ ≤ δ ^ 2 := h

/-- The chroma that is computed. -/
lemma Oklab.chroma_spec [Elementary] {c : Oklab} (ha : c.a.isFinite = true)
    (hb : c.b.isFinite = true) (hρ : √((c.a.value : ℝ) ^ 2 + (c.b.value : ℝ) ^ 2) ≤ 0.55) :
    Between 0 1 c.toOklch.chroma ∧
      |(c.toOklch.chroma.value : ℝ) - √((c.a.value : ℝ) ^ 2 + (c.b.value : ℝ) ^ 2)|
        ≤ 4 / 10 ^ 6 := by
  have hsquares : (c.a.value : ℝ) ^ 2 + (c.b.value : ℝ) ^ 2 ≤ 0.55 ^ 2 :=
    (Real.sqrt_le_left (by norm_num)).mp hρ
  have hwithin {x : Binary64} (hx : x.isFinite = true) (h : (x.value : ℝ) ^ 2 ≤ 1) :
      NearWithin 0 1 x.value x := by
    refine nearWithin_self hx ?_
    have hle : |(x.value : ℝ)| ≤ 1 := by rwa [← sq_le_one_iff_abs_le_one]
    exact_mod_cast hle
  have haw := hwithin ha (by linarith [sq_nonneg (c.b.value : ℝ)])
  have hbw := hwithin hb (by linarith [sq_nonneg (c.a.value : ℝ)])
  have haa := haw.mul haw (by norm_num) (by norm_num) (by norm_num) (by norm_num)
  have hbb := hbw.mul hbw (by norm_num) (by norm_num) (by norm_num) (by norm_num)
  have hsum := haa.add hbb (by norm_num) (by norm_num)
  set u := c.a * c.a + c.b * c.b with hu
  have hnonneg : 0 ≤ u.value :=
    (isRounded_add haa.near.isFinite hbb.near.isFinite).value_nonneg (add_nonneg
      ((isRounded_mul ha ha).value_nonneg (mul_self_nonneg _))
      ((isRounded_mul hb hb).value_nonneg (mul_self_nonneg _)))
  have hnear := hsum.near.abs_sub_le_real
  push_cast at hnear
  rw [← sq, ← sq] at hnear
  have hnonneg' : 0 ≤ (u.value : ℝ) := by exact_mod_cast hnonneg
  have hle : (u.value : ℝ) ≤ 2 := by
    have := (abs_le.mp hnear).2
    norm_num at this
    linarith
  have hmem : Between 0 2 u := ⟨hsum.near.isFinite, hnonneg, by exact_mod_cast hle⟩
  obtain ⟨hfinite, hroot⟩ := Binary64.abs_sqrt_sub_le hmem
  have hroots := abs_sqrt_sub_sqrt_le (δ := 3 / 10 ^ 6) hnonneg' (by positivity) (by norm_num)
    (hnear.trans (by norm_num))
  have herror : |(u.sqrt.value : ℝ) - √((c.a.value : ℝ) ^ 2 + (c.b.value : ℝ) ^ 2)|
      ≤ 4 / 10 ^ 6 := by
    refine (abs_sub_le _ (√(u.value : ℝ)) _).trans ?_
    linarith
  refine ⟨⟨hfinite, value_sqrt_nonneg hmem, ?_⟩, herror⟩
  have hone : (u.sqrt.value : ℝ) ≤ 1 := by linarith [(abs_le.mp herror).2]
  exact_mod_cast hone

section Hue

variable [Elementary] [Elementary.IsAccurate]

/-- The hue before it is brought above zero. -/
lemma Oklab.angle_spec {c : Oklab} (ha : c.a.isFinite = true) (hb : c.b.isFinite = true) :
    Within 240 (Elementary.atan2 c.b c.a * (180 / pi)) ∧
      ∃ φ : ℝ, IsDirection c.a.value c.b.value φ ∧
        |((Elementary.atan2 c.b c.a * (180 / pi)).value : ℝ) * (Real.pi / 180) - φ|
          ≤ 9 / 10 ^ 10 := by
  obtain ⟨φ, hle, hφ, hfinite, hangle⟩ := Elementary.IsAccurate.atan2 ha hb
  have hsmall : |((Elementary.atan2 c.b c.a).value : ℝ)| ≤ 4 := by
    have hpi := Real.pi_lt_d20
    have hmagnitude := abs_sub_abs_le_abs_sub ((Elementary.atan2 c.b c.a).value : ℝ) φ
    linarith
  have hself : NearWithin 0 4 (Elementary.atan2 c.b c.a).value (Elementary.atan2 c.b c.a) :=
    nearWithin_self hfinite (by exact_mod_cast hsmall)
  have hproduct :=
    hself.mul nearWithin_degrees (by norm_num) (by norm_num) (by norm_num) (by norm_num)
  set hue := Elementary.atan2 c.b c.a * (180 / pi)
  set angle := Elementary.atan2 c.b c.a
  refine ⟨within_of_abs_le hproduct.near.isFinite ?_, φ, hφ, ?_⟩
  · have herror := abs_le.mp (hproduct.near.abs_sub_le_of_le (by norm_num))
    have hbound := abs_le.mp hproduct.abs_le
    norm_num at hbound ⊢
    rw [abs_le]
    constructor <;> linarith [herror.1, herror.2, hbound.1, hbound.2]
  · have hreal := hproduct.near.abs_sub_le_real
    have hturn := abs_degrees_sub_le (t := angle.value) (by exact_mod_cast hself.abs_le)
    push_cast at hreal
    have hscaled : |(hue.value : ℝ) * (Real.pi / 180)
        - angle.value * (180 / pi.value) * (Real.pi / 180)| ≤ 1 / 10 ^ 10 := by
      rw [← sub_mul, abs_mul, abs_of_pos (by positivity : 0 < Real.pi / 180)]
      have hpi4 : Real.pi / 180 ≤ 1 := by linarith [Real.pi_lt_d20]
      exact (mul_le_of_le_one_right (abs_nonneg _) hpi4).trans (hreal.trans (by norm_num))
    rw [abs_le] at hturn hscaled hangle ⊢
    norm_num at hturn hscaled hangle ⊢
    constructor <;> linarith [hturn.1, hturn.2, hscaled.1, hscaled.2, hangle.1, hangle.2]

/-- The hue that is computed, of a direction of the point. -/
lemma Oklab.hue_spec {c : Oklab} (ha : c.a.isFinite = true) (hb : c.b.isFinite = true) :
    Between 0 360 c.toOklch.hue ∧ ∃ φ : ℝ, IsDirection c.a.value c.b.value φ ∧
      |(c.toOklch.hue.value : ℝ) * (Real.pi / 180) - φ| ≤ 1 / 10 ^ 9 := by
  obtain ⟨hwithin, φ, hφ, hangle⟩ := Oklab.angle_spec ha hb
  have hvalue : (0 : Binary64).isFinite = true ∧ (0 : Binary64).value = 0 := by
    exact_mod_cast value_ofInt (n := 0) (by norm_num)
  rw [Oklab.toOklch]
  simp only
  set hue := Elementary.atan2 c.b c.a * (180 / pi)
  have hcases : hue < 0 ↔ hue.value < 0 := by
    rw [lt_iff hwithin.isFinite hvalue.1, hvalue.2]
  have habs := abs_le.mp hwithin.abs_value_le
  by_cases hneg : hue.value < 0
  · rw [if_pos (hcases.mpr hneg)]
    have h360 : (OfNat.ofNat 360 : Binary64).value = 360 := by
      exact_mod_cast value_ofNat (n := 360) (by norm_num)
    have hround := isRounded_add (y := 360) hwithin.isFinite (isFinite_ofNat (by norm_num))
    rw [h360] at hround
    have hrepresentable : Representable (360 : ℚ) := representable_ofNat (by norm_num)
    have hzero : Representable (0 : ℚ) := by
      exact_mod_cast representable_natCast (n := 0) (by norm_num)
    push_cast at habs
    have hmem := hround.between hzero hrepresentable (by linarith) (by linarith)
    refine ⟨hmem, φ + 2 * Real.pi, hφ.add_turn, ?_⟩
    have hnear := (hround.near (k := 0) (q := hue.value + 360) (by simp) (by norm_num)
      (abs_le.mpr ⟨by linarith, by linarith⟩)).abs_sub_le_real
    push_cast at hnear
    have hsplit : ((hue + 360).value : ℝ) * (Real.pi / 180) - (φ + 2 * Real.pi)
        = ((hue + 360).value - (hue.value + 360)) * (Real.pi / 180)
          + (hue.value * (Real.pi / 180) - φ) := by ring
    have hscaled : |((hue + 360).value - (hue.value + 360) : ℝ) * (Real.pi / 180)|
        ≤ 1 / 10 ^ 10 := by
      rw [abs_mul, abs_of_pos (by positivity : 0 < Real.pi / 180)]
      exact (mul_le_of_le_one_right (abs_nonneg _) (by linarith [Real.pi_lt_d20])).trans
        (hnear.trans (by norm_num))
    rw [hsplit]
    exact (abs_add_le _ _).trans (by linarith)
  · rw [if_neg (fun h => hneg (hcases.mp h))]
    push_cast at habs
    refine ⟨⟨hwithin.isFinite, not_lt.mp hneg, by linarith⟩, φ, hφ, hangle.trans (by norm_num)⟩

end Hue

/-! ### From polar coordinates -/

/-- The error of a product of which both factors are off. -/
lemma abs_mul_sub_mul_le {C ρ u v : ℝ} (hC : 0 ≤ C) (hC' : C ≤ 0.551) (hρ : |C - ρ| ≤ 541 / 10 ^ 7)
    (hv : |v| ≤ 1) (huv : |u - v| ≤ 875 / 10 ^ 7) : |C * u - ρ * v| ≤ 1024 / 10 ^ 7 := by
  have hsplit : C * u - ρ * v = C * (u - v) + (C - ρ) * v := by ring
  rw [hsplit]
  calc |C * (u - v) + (C - ρ) * v| ≤ |C * (u - v)| + |(C - ρ) * v| := abs_add_le _ _
    _ = C * |u - v| + |C - ρ| * |v| := by rw [abs_mul, abs_mul, abs_of_nonneg hC]
    _ ≤ 0.551 * (875 / 10 ^ 7) + 541 / 10 ^ 7 * 1 := by gcongr
    _ ≤ 1024 / 10 ^ 7 := by norm_num

namespace Oklch

variable {c : Oklch}

/-- The angle that is computed of a hue. -/
lemma angle_spec (hhue : Between 0 361 c.hue) : (c.hue * (pi / 180)).isFinite = true ∧
    |((c.hue * (pi / 180)).value : ℝ) - c.hue.value * (Real.pi / 180)| ≤ 1 / 10 ^ 8 := by
  have hhue' : NearWithin 0 361 c.hue.value c.hue := nearWithin_of_between (by exact_mod_cast hhue)
  have hproduct :=
    hhue'.mul nearWithin_radians (by norm_num) (by norm_num) (by norm_num) (by norm_num)
  refine ⟨hproduct.near.isFinite, ?_⟩
  have hreal := hproduct.near.abs_sub_le_real
  have hbound : |(c.hue.value : ℝ)| ≤ 361 := by exact_mod_cast hhue'.abs_le
  have hsplit : (c.hue.value : ℝ) * (pi.value / 180) - c.hue.value * (Real.pi / 180)
      = c.hue.value * ((pi.value - Real.pi) / 180) := by ring
  have hturn : |(c.hue.value : ℝ) * (pi.value / 180) - c.hue.value * (Real.pi / 180)|
      ≤ 361 * (2 / 2 ^ 40 / 180) := by
    rw [hsplit, abs_mul, abs_div, abs_of_pos (by norm_num : (0 : ℝ) < 180)]
    exact mul_le_mul hbound (div_le_div_of_nonneg_right abs_pi_sub_le (by norm_num))
      (by positivity) (by norm_num)
  push_cast at hreal
  refine (abs_sub_le _ ((c.hue.value : ℝ) * (pi.value / 180)) _).trans
    ((add_le_add hreal hturn).trans ?_)
  norm_num

lemma toOklab_eq [Elementary] (hfinite : (c.hue * (pi / 180)).isFinite = true) :
    c.toOklab = .ok ⟨c.lightness, c.chroma * Elementary.cos (c.hue * (pi / 180)),
      c.chroma * Elementary.sin (c.hue * (pi / 180))⟩ := by
  obtain ⟨negative, units, hgrid, heq⟩ := exists_finite hfinite
  rw [Oklch.toOklab, heq]

/-- A coordinate that is computed of a chroma and of a sine or a cosine. -/
lemma coordinate_spec (hchroma : Between 0 1 c.chroma) {f : Binary64} (hf : f.isFinite = true)
    {ρ v : ℝ} (hρ : ρ ≤ 0.55) (hc : |(c.chroma.value : ℝ) - ρ| ≤ 541 / 10 ^ 7) (hv : |v| ≤ 1)
    (hfv : |(f.value : ℝ) - v| ≤ 875 / 10 ^ 7) :
    (c.chroma * f).isFinite = true ∧
      |((c.chroma * f).value : ℝ) - ρ * v| ≤ 105 / 10 ^ 6 := by
  have hchroma' : NearWithin 0 1 c.chroma.value c.chroma :=
    nearWithin_of_between (by exact_mod_cast hchroma)
  have hnonneg : 0 ≤ (c.chroma.value : ℝ) := by exact_mod_cast hchroma.le_value
  have hf2 : |(f.value : ℝ)| ≤ 2 := by
    linarith [abs_sub_abs_le_abs_sub (f.value : ℝ) v]
  have hproduct := hchroma'.mul (nearWithin_self (b := 2) hf (by exact_mod_cast hf2)) (by norm_num)
    (by norm_num) (by norm_num) (by norm_num)
  refine ⟨hproduct.near.isFinite, ?_⟩
  have hreal := hproduct.near.abs_sub_le_real
  push_cast at hreal
  have hexact := abs_mul_sub_mul_le hnonneg (by linarith [(abs_le.mp hc).2]) hc hv hfv
  refine (abs_sub_le _ ((c.chroma.value : ℝ) * f.value) _).trans
    ((add_le_add hreal hexact).trans ?_)
  norm_num

/-- The coordinates that are computed of polar ones which are off by what rounding to few decimals
costs. -/
lemma toOklab_spec [Elementary] [Elementary.IsAccurate] (hchroma : Between 0 1 c.chroma)
    (hhue : Between 0 361 c.hue) {a b φ : ℝ} (hφ : IsDirection a b φ) (hρ : √(a ^ 2 + b ^ 2) ≤ 0.55)
    (hc : |(c.chroma.value : ℝ) - √(a ^ 2 + b ^ 2)| ≤ 541 / 10 ^ 7)
    (hh : |(c.hue.value : ℝ) * (Real.pi / 180) - φ| ≤ 873 / 10 ^ 7) :
    ∃ x y : Binary64, c.toOklab = .ok ⟨c.lightness, x, y⟩ ∧
      x.isFinite = true ∧ y.isFinite = true ∧
      |(x.value : ℝ) - a| ≤ 105 / 10 ^ 6 ∧ |(y.value : ℝ) - b| ≤ 105 / 10 ^ 6 := by
  obtain ⟨hfinite, hangle⟩ := angle_spec hhue
  have hequation := toOklab_eq hfinite
  have hcos := Elementary.IsAccurate.cos hfinite
  have hsin := Elementary.IsAccurate.sin hfinite
  set angle := c.hue * (pi / 180)
  have hnear : |(angle.value : ℝ) - φ| ≤ 874 / 10 ^ 7 := by
    refine (abs_sub_le _ ((c.hue.value : ℝ) * (Real.pi / 180)) _).trans
      ((add_le_add hangle hh).trans ?_)
    norm_num
  have hfactor {f u v : ℝ} (hu : |f - u| ≤ 1 / 2 ^ 38) (huv : |u - v| ≤ |(angle.value : ℝ) - φ|) :
      |f - v| ≤ 875 / 10 ^ 7 := by
    refine (abs_sub_le _ u _).trans ((add_le_add hu (huv.trans hnear)).trans ?_)
    norm_num
  obtain ⟨hx, hxa⟩ := coordinate_spec hchroma hcos.isFinite hρ hc (Real.abs_cos_le_one φ)
    (hfactor hcos.abs_sub_le (Real.abs_cos_sub_cos_le _ _))
  obtain ⟨hy, hyb⟩ := coordinate_spec hchroma hsin.isFinite hρ hc (Real.abs_sin_le_one φ)
    (hfactor hsin.abs_sub_le (Real.abs_sin_sub_sin_le _ _))
  rw [← hφ.1] at hxa
  rw [← hφ.2] at hyb
  exact ⟨_, _, hequation, hx, hy, hxa, hyb⟩

end Oklch

end Swatch
