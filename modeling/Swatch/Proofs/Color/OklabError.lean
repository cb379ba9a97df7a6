import Swatch.Color.Oklab
import Swatch.Proofs.Binary64.Accurate
import Swatch.Proofs.Color.Cones
/-!
The Oklab colour space as it is computed, step by step.

Each step is a few sums and products of moderate numbers, so what is computed meets the relations
between real numbers that `Swatch.Proofs.Color.Cones` is about.

* `Linear.toXyz_spec`, `Xyz.toOklab_spec`: tristimulus values, and the coordinates of their
  responses.
* `Oklab.toLinear_spec`: the light of coordinates.
-/

namespace Swatch

open Binary64

namespace Binary64

/-- A few roundings stay below the slack of a step. -/
lemma NearWithin.abs_sub_le_slack {a k : Nat} {p : ℚ} {x : Binary64} (hx : NearWithin a k p x)
    (ha : a ≤ 256) :
    |(x.value : ℝ) - p| ≤ Oklab.slack := by
  refine hx.near.abs_sub_le_real.trans ?_
  have har : (a : ℝ) ≤ 256 := by exact_mod_cast ha
  rw [Oklab.slack_eq, div_le_div_iff₀ (by positivity) (by positivity)]
  linarith

/-- A moderate number with a decimal coefficient. -/
lemma NearWithin.decimal_mul {q : ℚ} {x : Binary64} (hx : NearWithin 6 8 q x) {m e : Nat}
    (h : m ≤ 5 * 10 ^ e) :
    NearWithin 40 40 (OfScientific.ofScientific m true e * q)
      (OfScientific.ofScientific m true e * x) :=
  (nearWithin_ofScientific h (by norm_num)).mul hx (by norm_num) (by norm_num) (by norm_num)
    (by norm_num)

/-- A moderate number with a decimal coefficient below zero. -/
lemma NearWithin.neg_decimal_mul {q : ℚ} {x : Binary64} (hx : NearWithin 6 8 q x) {m e : Nat}
    (h : m ≤ 5 * 10 ^ e) :
    NearWithin 40 40 (-OfScientific.ofScientific m true e * q)
      (-OfScientific.ofScientific m true e * x) :=
  (nearWithin_ofScientific h (by norm_num)).neg.mul hx (by norm_num) (by norm_num) (by norm_num)
    (by norm_num)

/-- Numbers up to two are moderate. -/
lemma nearWithin_moderate {x : Binary64} (hx : Between 0 2 x) : NearWithin 6 8 x.value x :=
  (nearWithin_of_between (b := 2) (by exact_mod_cast hx)).mono (by norm_num) (by norm_num)

/-- A sum of three moderate numbers with coefficients that are not negative. -/
lemma nearWithin_row {x y z : Binary64} (hx : Between 0 2 x) (hy : Between 0 2 y)
    (hz : Between 0 2 z) {m₁ m₂ m₃ e₁ e₂ e₃ : Nat} (h₁ : m₁ ≤ 5 * 10 ^ e₁) (h₂ : m₂ ≤ 5 * 10 ^ e₂)
    (h₃ : m₃ ≤ 5 * 10 ^ e₃) :
    NearWithin 122 120
      (OfScientific.ofScientific m₁ true e₁ * x.value
        + OfScientific.ofScientific m₂ true e₂ * y.value
        + OfScientific.ofScientific m₃ true e₃ * z.value)
      (OfScientific.ofScientific m₁ true e₁ * x + OfScientific.ofScientific m₂ true e₂ * y
        + OfScientific.ofScientific m₃ true e₃ * z) ∧
    0 ≤ (OfScientific.ofScientific m₁ true e₁ * x + OfScientific.ofScientific m₂ true e₂ * y
        + OfScientific.ofScientific m₃ true e₃ * z).value := by
  have hnonneg {x : Binary64} (hx : Between 0 2 x) {m e : Nat} (h : m ≤ 5 * 10 ^ e) :
      0 ≤ (OfScientific.ofScientific m true e * x).value := by
    have hdecimal := nearWithin_ofScientific h (by norm_num)
    exact (isRounded_mul hdecimal.near.isFinite hx.isFinite).value_nonneg
      (mul_nonneg ((isRounded_ofScientific m e).value_nonneg (by positivity)) hx.le_value)
  have hx' := (nearWithin_moderate hx).decimal_mul h₁
  have hy' := (nearWithin_moderate hy).decimal_mul h₂
  have hz' := (nearWithin_moderate hz).decimal_mul h₃
  have hxy := hx'.add hy' (by norm_num) (by norm_num)
  refine ⟨hxy.add hz' (by norm_num) (by norm_num), ?_⟩
  exact (isRounded_add hxy.near.isFinite hz'.near.isFinite).value_nonneg (add_nonneg
    ((isRounded_add hx'.near.isFinite hy'.near.isFinite).value_nonneg
      (add_nonneg (hnonneg hx h₁) (hnonneg hy h₂))) (hnonneg hz h₃))

/-- A mixture of light, if its coefficients are at most three halves together. -/
lemma mixture_row {r g b : Binary64} (hr : Between 0 1 r) (hg : Between 0 1 g)
    (hb : Between 0 1 b) {m₁ m₂ m₃ e₁ e₂ e₃ : Nat} (h₁ : m₁ ≤ 5 * 10 ^ e₁) (h₂ : m₂ ≤ 5 * 10 ^ e₂)
    (h₃ : m₃ ≤ 5 * 10 ^ e₃)
    (hsum : (OfScientific.ofScientific m₁ true e₁ : ℚ) + OfScientific.ofScientific m₂ true e₂
      + OfScientific.ofScientific m₃ true e₃ ≤ 3 / 2) :
    Between 0 2 (r * OfScientific.ofScientific m₁ true e₁ + g * OfScientific.ofScientific m₂ true e₂
      + b * OfScientific.ofScientific m₃ true e₃) ∧
    |((r * OfScientific.ofScientific m₁ true e₁ + g * OfScientific.ofScientific m₂ true e₂
      + b * OfScientific.ofScientific m₃ true e₃).value : ℝ)
      - ((OfScientific.ofScientific m₁ true e₁ * r.value
        + OfScientific.ofScientific m₂ true e₂ * g.value
        + OfScientific.ofScientific m₃ true e₃ * b.value : ℚ) : ℝ)| ≤ Oklab.slack := by
  have hdouble {x : Binary64} (hx : Between 0 1 x) : Between 0 2 x := hx.mono le_rfl one_le_two
  have hterm {x : Binary64} (hx : Between 0 1 x) (m e : Nat) :
      (OfScientific.ofScientific m true e : ℚ) * x.value ≤ OfScientific.ofScientific m true e := by
    refine mul_le_of_le_one_right ?_ hx.value_le
    rw [ofScientific_eq_div]
    positivity
  obtain ⟨hrow, hnonneg⟩ := nearWithin_row (hdouble hr) (hdouble hg) (hdouble hb) h₁ h₂ h₃
  simp only [Binary64.mul_comm r, Binary64.mul_comm g, Binary64.mul_comm b]
  refine ⟨⟨hrow.near.isFinite, hnonneg, ?_⟩, hrow.abs_sub_le_slack (by norm_num)⟩
  have herror := (abs_le.mp (hrow.near.abs_sub_le_of_le (by norm_num))).2
  linarith [hterm hr m₁ e₁, hterm hg m₂ e₂, hterm hb m₃ e₃]

section Roots

variable [Elementary] [Elementary.IsAccurate]

/-- A cube root that is computed, by its cube. -/
lemma cbrt_spec {u : Binary64} (hu : Between 0 2 u) :
    Between 0 2 (Elementary.cbrt u) ∧
      |((Elementary.cbrt u).value : ℝ) ^ 3 - u.value| ≤ 1 / 2 ^ 35 := by
  have happrox := Elementary.IsAccurate.cbrt hu
  have hu0 : (0 : ℝ) ≤ u.value := by exact_mod_cast hu.le_value
  set root := (u.value : ℝ) ^ (3 : ℝ)⁻¹
  have hroot : 0 ≤ root := by positivity
  have hcube : root ^ 3 = u.value := by
    exact_mod_cast Real.rpow_inv_natCast_pow hu0 three_ne_zero
  have hsmall : root ≤ 1.3 := by
    refine (pow_le_pow_iff_left₀ hroot (by norm_num) three_ne_zero).mp ?_
    have hle : (u.value : ℝ) ≤ 2 := by exact_mod_cast hu.value_le
    rw [hcube]
    linarith
  refine ⟨⟨happrox.isFinite, Elementary.IsAccurate.value_cbrt_nonneg hu, ?_⟩, ?_⟩
  · have hle : ((Elementary.cbrt u).value : ℝ) ≤ 2 := by
      linarith [(abs_le.mp happrox.abs_sub_le).2]
    exact_mod_cast hle
  · rw [← hcube]
    exact (Oklab.abs_cube_sub_le hroot hsmall happrox.abs_sub_le).trans (by norm_num)

/-- The cube root of such a sum, if it is small. -/
lemma cbrt_row {x y z : Binary64} (hx : Between 0 2 x) (hy : Between 0 2 y) (hz : Between 0 2 z)
    (hle : x.value ≤ 1.1 ∧ y.value ≤ 1.1 ∧ z.value ≤ 1.1) {m₁ m₂ m₃ e₁ e₂ e₃ : Nat}
    (h₁ : m₁ ≤ 5 * 10 ^ e₁) (h₂ : m₂ ≤ 5 * 10 ^ e₂) (h₃ : m₃ ≤ 5 * 10 ^ e₃)
    (hsum : (OfScientific.ofScientific m₁ true e₁ : ℚ) + OfScientific.ofScientific m₂ true e₂
      + OfScientific.ofScientific m₃ true e₃ ≤ 1.1) :
    Between 0 2 (Elementary.cbrt (OfScientific.ofScientific m₁ true e₁ * x
      + OfScientific.ofScientific m₂ true e₂ * y + OfScientific.ofScientific m₃ true e₃ * z)) ∧
    |((Elementary.cbrt (OfScientific.ofScientific m₁ true e₁ * x
      + OfScientific.ofScientific m₂ true e₂ * y
      + OfScientific.ofScientific m₃ true e₃ * z)).value : ℝ) ^ 3
      - ((OfScientific.ofScientific m₁ true e₁ * x.value
        + OfScientific.ofScientific m₂ true e₂ * y.value
        + OfScientific.ofScientific m₃ true e₃ * z.value : ℚ) : ℝ)| ≤ Oklab.slack := by
  obtain ⟨hrow, hnonneg⟩ := nearWithin_row hx hy hz h₁ h₂ h₃
  have hterm {x : Binary64} (hx : x.value ≤ 1.1) (m e : Nat) :
      (OfScientific.ofScientific m true e : ℚ) * x.value
        ≤ OfScientific.ofScientific m true e * 1.1 := by
    refine mul_le_mul_of_nonneg_left hx ?_
    rw [ofScientific_eq_div]
    positivity
  have hx' := hterm hle.1 m₁ e₁
  have hy' := hterm hle.2.1 m₂ e₂
  have hz' := hterm hle.2.2 m₃ e₃
  have herror := (abs_le.mp (hrow.near.abs_sub_le_of_le (by norm_num))).2
  obtain ⟨hroot, hcube⟩ := cbrt_spec ⟨hrow.near.isFinite, hnonneg, by linarith⟩
  refine ⟨hroot, ?_⟩
  have hreal := hrow.near.abs_sub_le_real
  rw [abs_le] at hcube hreal ⊢
  rw [Oklab.slack_eq]
  norm_num at hcube hreal ⊢
  constructor <;> linarith [hcube.1, hcube.2, hreal.1, hreal.2]

end Roots

/-- The cube of a moderate number. -/
lemma nearWithin_cubed {x : Binary64} (hx : NearWithin 0 2 x.value x) :
    NearWithin 6 8 (x.value ^ 3) (cubed x) := by
  have hcube := (hx.mul hx (by norm_num) (by norm_num) (by norm_num) (by norm_num)).mul hx
    (by norm_num) (by norm_num) (by norm_num) (by norm_num)
  have hpow : x.value * x.value * x.value = x.value ^ 3 := by ring
  rwa [hpow] at hcube

end Binary64

/-! ### Each step as it is computed -/

/-- The tristimulus values that are computed. -/
lemma Linear.toXyz_spec {c : Linear} (hr : Between 0 1 c.red) (hg : Between 0 1 c.green)
    (hb : Between 0 1 c.blue) :
    (Between 0 2 c.toXyz.x ∧ Between 0 2 c.toXyz.y ∧ Between 0 2 c.toXyz.z) ∧
      Oklab.IsTristimulus c.red.value c.green.value c.blue.value c.toXyz.x.value c.toXyz.y.value
        c.toXyz.z.value := by
  rw [Linear.toXyz]
  simp only
  obtain ⟨hx, hxrow⟩ := mixture_row hr hg hb (show 4124564 ≤ 5 * 10 ^ 7 by norm_num)
    (show 3575761 ≤ 5 * 10 ^ 7 by norm_num) (show 1804375 ≤ 5 * 10 ^ 7 by norm_num) (by norm_num)
  obtain ⟨hy, hyrow⟩ := mixture_row hr hg hb (show 2126729 ≤ 5 * 10 ^ 7 by norm_num)
    (show 7151522 ≤ 5 * 10 ^ 7 by norm_num) (show 721750 ≤ 5 * 10 ^ 7 by norm_num) (by norm_num)
  obtain ⟨hz, hzrow⟩ := mixture_row hr hg hb (show 193339 ≤ 5 * 10 ^ 7 by norm_num)
    (show 1191920 ≤ 5 * 10 ^ 7 by norm_num) (show 9503041 ≤ 5 * 10 ^ 7 by norm_num) (by norm_num)
  have hmem {x : Binary64} (hx : Between 0 1 x) : 0 ≤ (x.value : ℝ) ∧ (x.value : ℝ) ≤ 1 :=
    ⟨by exact_mod_cast hx.le_value, by exact_mod_cast hx.value_le⟩
  refine ⟨⟨hx, hy, hz⟩, hmem hr, hmem hg, hmem hb, ⟨by exact_mod_cast hx.le_value,
    by exact_mod_cast hy.le_value, by exact_mod_cast hz.le_value⟩, ?_, ?_, ?_⟩
  · simpa using hxrow
  · simpa using hyrow
  · simpa using hzrow

/-- The coordinates that are computed of tristimulus values. -/
lemma Xyz.toOklab_spec [Elementary] [Elementary.IsAccurate] {c : Xyz} (hx : Between 0 2 c.x)
    (hy : Between 0 2 c.y) (hz : Between 0 2 c.z)
    (hle : c.x.value ≤ 1.1 ∧ c.y.value ≤ 1.1 ∧ c.z.value ≤ 1.1) :
    (c.toOklab.lightness.isFinite = true ∧ c.toOklab.a.isFinite = true ∧
      c.toOklab.b.isFinite = true) ∧
    ∃ l m s : ℝ, Oklab.AreResponses c.x.value c.y.value c.z.value l m s ∧
      Oklab.AreCoordinates l m s c.toOklab.lightness.value c.toOklab.a.value
        c.toOklab.b.value := by
  rw [Xyz.toOklab]
  simp only
  obtain ⟨hl, hlong⟩ := cbrt_row hx hy hz hle (show 4122214708 ≤ 5 * 10 ^ 10 by norm_num)
    (show 5363325363 ≤ 5 * 10 ^ 10 by norm_num) (show 514459929 ≤ 5 * 10 ^ 10 by norm_num)
    (by norm_num)
  obtain ⟨hm, hmedium⟩ := cbrt_row hx hy hz hle (show 2119034982 ≤ 5 * 10 ^ 10 by norm_num)
    (show 6806995451 ≤ 5 * 10 ^ 10 by norm_num) (show 1073969566 ≤ 5 * 10 ^ 10 by norm_num)
    (by norm_num)
  obtain ⟨hs, hshort⟩ := cbrt_row hx hy hz hle (show 883024619 ≤ 5 * 10 ^ 10 by norm_num)
    (show 2817188376 ≤ 5 * 10 ^ 10 by norm_num) (show 6299787005 ≤ 5 * 10 ^ 10 by norm_num)
    (by norm_num)
  set l := Elementary.cbrt (0.4122214708 * c.x + 0.5363325363 * c.y + 0.0514459929 * c.z)
  set m := Elementary.cbrt (0.2119034982 * c.x + 0.6806995451 * c.y + 0.1073969566 * c.z)
  set s := Elementary.cbrt (0.0883024619 * c.x + 0.2817188376 * c.y + 0.6299787005 * c.z)
  have hl' := nearWithin_moderate hl
  have hm' := nearWithin_moderate hm
  have hs' := nearWithin_moderate hs
  have hL : NearWithin 122 120
      (0.2104542553 * l.value + 0.7936177850 * m.value - 0.0040720468 * s.value)
      (0.2104542553 * l + 0.7936177850 * m - 0.0040720468 * s) :=
    ((hl'.decimal_mul (by norm_num)).add (hm'.decimal_mul (by norm_num)) (by norm_num)
      (by norm_num)).sub (hs'.decimal_mul (by norm_num)) (by norm_num) (by norm_num)
  have ha : NearWithin 122 120
      (1.9779984951 * l.value - 2.4285922050 * m.value + 0.4505937099 * s.value)
      (1.9779984951 * l - 2.4285922050 * m + 0.4505937099 * s) :=
    ((hl'.decimal_mul (by norm_num)).sub (hm'.decimal_mul (by norm_num)) (by norm_num)
      (by norm_num)).add (hs'.decimal_mul (by norm_num)) (by norm_num) (by norm_num)
  have hb : NearWithin 122 120
      (0.0259040371 * l.value + 0.7827717662 * m.value - 0.8086757660 * s.value)
      (0.0259040371 * l + 0.7827717662 * m - 0.8086757660 * s) :=
    ((hl'.decimal_mul (by norm_num)).add (hm'.decimal_mul (by norm_num)) (by norm_num)
      (by norm_num)).sub (hs'.decimal_mul (by norm_num)) (by norm_num) (by norm_num)
  refine ⟨⟨hL.near.isFinite, ha.near.isFinite, hb.near.isFinite⟩, l.value, m.value, s.value, ?_, ?_⟩
  · exact ⟨⟨by exact_mod_cast hl.le_value, by exact_mod_cast hm.le_value,
      by exact_mod_cast hs.le_value⟩, by simpa using hlong, by simpa using hmedium,
      by simpa using hshort⟩
  · exact ⟨by simpa using hL.abs_sub_le_slack (by norm_num),
      by simpa using ha.abs_sub_le_slack (by norm_num),
      by simpa using hb.abs_sub_le_slack (by norm_num)⟩

/-- The light that is computed of coordinates, if they belong to moderate responses. -/
lemma Oklab.toLinear_spec {c : Oklab} (hlightness : NearWithin 0 2 c.lightness.value c.lightness)
    (ha : NearWithin 0 1 c.a.value c.a) (hb : NearWithin 0 1 c.b.value c.b)
    (hmoderate : ∀ l m s : ℝ, AreBackResponses c.lightness.value c.a.value c.b.value l m s →
      |l| ≤ 2 ∧ |m| ≤ 2 ∧ |s| ≤ 2) :
    (c.toLinear.red.isFinite = true ∧ c.toLinear.green.isFinite = true ∧
      c.toLinear.blue.isFinite = true) ∧
    ∃ l m s : ℝ, AreBackResponses c.lightness.value c.a.value c.b.value l m s ∧
      IsBackLight l m s c.toLinear.red.value c.toLinear.green.value c.toLinear.blue.value := by
  have ha' := ha.mono (Nat.zero_le 6) (by norm_num : 1 ≤ 8)
  have hb' := hb.mono (Nat.zero_le 6) (by norm_num : 1 ≤ 8)
  have hl : NearWithin 82 82
      (c.lightness.value + 0.3963377774 * c.a.value + 0.2158037573 * c.b.value)
      (c.lightness + 0.3963377774 * c.a + 0.2158037573 * c.b) :=
    (hlightness.add (ha'.decimal_mul (by norm_num)) (by norm_num) (by norm_num)).add
      (hb'.decimal_mul (by norm_num)) (by norm_num) (by norm_num)
  have hm : NearWithin 82 82
      (c.lightness.value - 0.1055613458 * c.a.value - 0.0638541728 * c.b.value)
      (c.lightness - 0.1055613458 * c.a - 0.0638541728 * c.b) :=
    (hlightness.sub (ha'.decimal_mul (by norm_num)) (by norm_num) (by norm_num)).sub
      (hb'.decimal_mul (by norm_num)) (by norm_num) (by norm_num)
  have hs : NearWithin 82 82
      (c.lightness.value - 0.0894841775 * c.a.value - 1.2914855480 * c.b.value)
      (c.lightness - 0.0894841775 * c.a - 1.2914855480 * c.b) :=
    (hlightness.sub (ha'.decimal_mul (by norm_num)) (by norm_num) (by norm_num)).sub
      (hb'.decimal_mul (by norm_num)) (by norm_num) (by norm_num)
  rw [Oklab.toLinear]
  simp only
  set l := c.lightness + 0.3963377774 * c.a + 0.2158037573 * c.b
  set m := c.lightness - 0.1055613458 * c.a - 0.0638541728 * c.b
  set s := c.lightness - 0.0894841775 * c.a - 1.2914855480 * c.b
  have hback : AreBackResponses c.lightness.value c.a.value c.b.value l.value m.value s.value :=
    ⟨by simpa using hl.abs_sub_le_slack (by norm_num),
      by simpa using hm.abs_sub_le_slack (by norm_num),
      by simpa using hs.abs_sub_le_slack (by norm_num)⟩
  obtain ⟨hl2, hm2, hs2⟩ := hmoderate _ _ _ hback
  have hl3 := nearWithin_cubed (nearWithin_self hl.near.isFinite (by exact_mod_cast hl2))
  have hm3 := nearWithin_cubed (nearWithin_self hm.near.isFinite (by exact_mod_cast hm2))
  have hs3 := nearWithin_cubed (nearWithin_self hs.near.isFinite (by exact_mod_cast hs2))
  have hred : NearWithin 122 120
      (4.0767416621 * l.value ^ 3 - 3.3077115913 * m.value ^ 3 + 0.2309699292 * s.value ^ 3)
      (4.0767416621 * cubed l - 3.3077115913 * cubed m + 0.2309699292 * cubed s) :=
    ((hl3.decimal_mul (by norm_num)).sub (hm3.decimal_mul (by norm_num)) (by norm_num)
      (by norm_num)).add (hs3.decimal_mul (by norm_num)) (by norm_num) (by norm_num)
  have hgreen : NearWithin 122 120
      (-1.2684380046 * l.value ^ 3 + 2.6097574011 * m.value ^ 3 - 0.3413193965 * s.value ^ 3)
      (-1.2684380046 * cubed l + 2.6097574011 * cubed m - 0.3413193965 * cubed s) :=
    ((hl3.neg_decimal_mul (by norm_num)).add (hm3.decimal_mul (by norm_num)) (by norm_num)
      (by norm_num)).sub (hs3.decimal_mul (by norm_num)) (by norm_num) (by norm_num)
  have hblue : NearWithin 122 120
      (-0.0041960863 * l.value ^ 3 - 0.7034186147 * m.value ^ 3 + 1.7076147010 * s.value ^ 3)
      (-0.0041960863 * cubed l - 0.7034186147 * cubed m + 1.7076147010 * cubed s) :=
    ((hl3.neg_decimal_mul (by norm_num)).sub (hm3.decimal_mul (by norm_num)) (by norm_num)
      (by norm_num)).add (hs3.decimal_mul (by norm_num)) (by norm_num) (by norm_num)
  refine ⟨⟨hred.near.isFinite, hgreen.near.isFinite, hblue.near.isFinite⟩, _, _, _, hback, ?_⟩
  exact ⟨by simpa using hred.abs_sub_le_slack (by norm_num),
    by simpa using hgreen.abs_sub_le_slack (by norm_num),
    by simpa using hblue.abs_sub_le_slack (by norm_num)⟩

end Swatch
