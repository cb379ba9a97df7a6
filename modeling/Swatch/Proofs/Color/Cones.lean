import Mathlib.Analysis.SpecialFunctions.Pow.Real
/-!
The Oklab colour space in real numbers, up to rounding.

* `IsTristimulus`, `AreResponses`, `AreCoordinates`: the way from the light of the primaries to
  Oklab coordinates.
* `AreBackResponses`, `IsBackLight`: the way back to light.
* `AreCoordinates.abs_lightness_le`, `AreCoordinates.lightness_nonneg`, `AreCoordinates.sqrt_le`:
  the size of the coordinates.
* `AreBackResponses.abs_sub_le`: the responses that come back of coordinates that are a little off.
* `IsBackLight.abs_sub_le`: the light that comes back is near the tristimulus values.
-/

namespace Swatch

namespace Oklab

/-- What the numbers of a step may be off by. -/
noncomputable def slack : ℝ := ((1 / 2 ^ 32 : ℚ) : ℝ)

lemma slack_eq : slack = 1 / 2 ^ 32 := by
  rw [slack]
  norm_num

/-- Tristimulus values of the light of three primaries. -/
structure IsTristimulus (r g b x y z : ℝ) : Prop where
  red : 0 ≤ r ∧ r ≤ 1
  green : 0 ≤ g ∧ g ≤ 1
  blue : 0 ≤ b ∧ b ≤ 1
  nonneg : 0 ≤ x ∧ 0 ≤ y ∧ 0 ≤ z
  x_near : |x - (0.4124564 * r + 0.3575761 * g + 0.1804375 * b)| ≤ slack
  y_near : |y - (0.2126729 * r + 0.7151522 * g + 0.0721750 * b)| ≤ slack
  z_near : |z - (0.0193339 * r + 0.1191920 * g + 0.9503041 * b)| ≤ slack

/-- Responses of the three cones: cube roots. -/
structure AreResponses (x y z l m s : ℝ) : Prop where
  nonneg : 0 ≤ l ∧ 0 ≤ m ∧ 0 ≤ s
  long : |l ^ 3 - (0.4122214708 * x + 0.5363325363 * y + 0.0514459929 * z)| ≤ slack
  medium : |m ^ 3 - (0.2119034982 * x + 0.6806995451 * y + 0.1073969566 * z)| ≤ slack
  short : |s ^ 3 - (0.0883024619 * x + 0.2817188376 * y + 0.6299787005 * z)| ≤ slack

/-- Coordinates of responses. -/
structure AreCoordinates (l m s lightness a b : ℝ) : Prop where
  lightness : |lightness - (0.2104542553 * l + 0.7936177850 * m - 0.0040720468 * s)| ≤ slack
  a : |a - (1.9779984951 * l - 2.4285922050 * m + 0.4505937099 * s)| ≤ slack
  b : |b - (0.0259040371 * l + 0.7827717662 * m - 0.8086757660 * s)| ≤ slack

/-- Responses of coordinates. -/
structure AreBackResponses (lightness a b l m s : ℝ) : Prop where
  long : |l - (lightness + 0.3963377774 * a + 0.2158037573 * b)| ≤ slack
  medium : |m - (lightness - 0.1055613458 * a - 0.0638541728 * b)| ≤ slack
  short : |s - (lightness - 0.0894841775 * a - 1.2914855480 * b)| ≤ slack

/-- Light of responses. -/
structure IsBackLight (l m s r g b : ℝ) : Prop where
  red : |r - (4.0767416621 * l ^ 3 - 3.3077115913 * m ^ 3 + 0.2309699292 * s ^ 3)| ≤ slack
  green : |g - (-1.2684380046 * l ^ 3 + 2.6097574011 * m ^ 3 - 0.3413193965 * s ^ 3)| ≤ slack
  blue : |b - (-0.0041960863 * l ^ 3 - 0.7034186147 * m ^ 3 + 1.7076147010 * s ^ 3)| ≤ slack

/-! ### Cubes -/

/-- The root of light that is hardly more than that of white. -/
lemma exists_root {v : ℝ} (hv : 0 ≤ v) (hv' : v ≤ 1.09) :
    ∃ t : ℝ, 0 ≤ t ∧ t ≤ 1.03 ∧ v = t ^ 3 := by
  have hcube : (v ^ ((3 : ℕ) : ℝ)⁻¹) ^ 3 = v := Real.rpow_inv_natCast_pow hv three_ne_zero
  have hnonneg : 0 ≤ v ^ ((3 : ℕ) : ℝ)⁻¹ := Real.rpow_nonneg hv _
  refine ⟨_, hnonneg, ?_, hcube.symm⟩
  refine (pow_le_pow_iff_left₀ hnonneg (by norm_num) three_ne_zero).mp ?_
  rw [hcube]
  linarith

/-- A root whose cube is at most a multiple of another cube, but for little. -/
lemma root_le_of_cube_le {u v k : ℝ} (hv : 0 ≤ v) (hk : 0 ≤ k)
    (h : u ^ 3 ≤ k ^ 3 * v ^ 3 + (1 / 600) ^ 3) : u ≤ k * v + 1 / 600 := by
  have hkv : 0 ≤ k * v := mul_nonneg hk hv
  by_contra hlt
  have hcube := pow_lt_pow_left₀ (not_le.mp hlt) (by positivity) three_ne_zero
  have hexpand : (k * v) ^ 3 + (1 / 600) ^ 3 ≤ (k * v + 1 / 600) ^ 3 := by
    nlinarith [sq_nonneg (k * v)]
  rw [mul_pow] at hexpand
  linarith

/-- How far the cubes of two near roots are apart. -/
lemma abs_cube_sub_le {u v δ B : ℝ} (hv : 0 ≤ v) (hvB : v ≤ B) (h : |u - v| ≤ δ) :
    |u ^ 3 - v ^ 3| ≤ δ * (3 * B ^ 2 + 3 * B * δ + δ ^ 2) := by
  have hδ : 0 ≤ δ := (abs_nonneg _).trans h
  have hB : 0 ≤ B := hv.trans hvB
  have hfactor : u ^ 3 - v ^ 3 = (u - v) * (3 * v ^ 2 + 3 * v * (u - v) + (u - v) ^ 2) := by ring
  rw [hfactor, abs_mul]
  refine mul_le_mul h ?_ (abs_nonneg _) hδ
  calc |3 * v ^ 2 + 3 * v * (u - v) + (u - v) ^ 2|
      ≤ |3 * v ^ 2| + |3 * v * (u - v)| + |(u - v) ^ 2| := abs_add_three _ _ _
    _ = 3 * v ^ 2 + 3 * v * |u - v| + |u - v| ^ 2 := by
        rw [abs_of_nonneg (by positivity), abs_mul, abs_of_nonneg (by positivity), abs_pow]
    _ ≤ 3 * B ^ 2 + 3 * B * δ + δ ^ 2 := by gcongr

/-- How far the cubes of near responses are apart, next to light that bounds their own. -/
lemma abs_cube_sub_le_mul {t u v κ δ : ℝ} (ht : 0 ≤ t) (hv : 0 ≤ v) (hκ : 1 ≤ κ)
    (hcube : v ^ 3 ≤ κ ^ 3 * t ^ 3 + (1 / 600) ^ 3) (h : |u - v| ≤ δ) :
    |u ^ 3 - v ^ 3| ≤ δ * (3 * κ ^ 2 + 1500 * κ * δ + 250000 * δ ^ 2) * (t + 1 / 500) ^ 2 := by
  have hδ : 0 ≤ δ := (abs_nonneg _).trans h
  have hroot := root_le_of_cube_le ht (by linarith) hcube
  have hbound : v ≤ κ * (t + 1 / 500) := by linarith
  refine (abs_cube_sub_le hv hbound h).trans ?_
  rw [mul_assoc δ]
  refine mul_le_mul_of_nonneg_left ?_ hδ
  have hone : δ ≤ 500 * δ * (t + 1 / 500) := by nlinarith
  have hlinear : 3 * (κ * (t + 1 / 500)) * δ
      ≤ 3 * (κ * (t + 1 / 500)) * (500 * δ * (t + 1 / 500)) :=
    mul_le_mul_of_nonneg_left hone (by positivity)
  have hsquare : δ ^ 2 ≤ (500 * δ * (t + 1 / 500)) ^ 2 := pow_le_pow_left₀ hδ hone 2
  calc 3 * (κ * (t + 1 / 500)) ^ 2 + 3 * (κ * (t + 1 / 500)) * δ + δ ^ 2
      ≤ 3 * (κ * (t + 1 / 500)) ^ 2 + 3 * (κ * (t + 1 / 500)) * (500 * δ * (t + 1 / 500))
        + (500 * δ * (t + 1 / 500)) ^ 2 := by linarith
    _ = (3 * κ ^ 2 + 1500 * κ * δ + 250000 * δ ^ 2) * (t + 1 / 500) ^ 2 := by ring

/-! ### Responses and light -/

lemma slack_mem : 0 ≤ slack ∧ slack ≤ 233 / 10 ^ 12 := by
  rw [slack_eq]
  constructor <;> norm_num

section Bounds

variable {r g b x y z l m s : ℝ}

lemma IsTristimulus.le (h : IsTristimulus r g b x y z) : x ≤ 0.951 ∧ y ≤ 1.001 ∧ z ≤ 1.09 := by
  obtain ⟨⟨hr, hr'⟩, ⟨hg, hg'⟩, ⟨hb, hb'⟩, -, hx, hy, hz⟩ := h
  have hslack := slack_mem
  rw [abs_le] at hx hy hz
  refine ⟨?_, ?_, ?_⟩ <;> linarith

variable (h : IsTristimulus r g b x y z) (hlms : AreResponses x y z l m s)
include h hlms

/-- No response is far above one. -/
lemma AreResponses.le : l ≤ 1 ∧ m ≤ 1 ∧ s ≤ 1.02 := by
  have hslack := slack_mem
  obtain ⟨hl, hm, hs⟩ := hlms.nonneg
  obtain ⟨⟨hr, hr'⟩, ⟨hg, hg'⟩, ⟨hb, hb'⟩, -, hx, hy, hz⟩ := h
  have hlong := hlms.long
  have hmedium := hlms.medium
  have hshort := hlms.short
  rw [abs_le] at hx hy hz hlong hmedium hshort
  have hcube {u B : ℝ} (hu : 0 ≤ u) (hB : 0 ≤ B) (hle : u ^ 3 ≤ B ^ 3) : u ≤ B :=
    (pow_le_pow_iff_left₀ hu hB three_ne_zero).mp hle
  refine ⟨hcube hl zero_le_one ?_, hcube hm zero_le_one ?_, hcube hs (by norm_num) ?_⟩
  · linarith
  · linarith
  · linarith

/-- The responses next to the first tristimulus value. -/
lemma AreResponses.cube_le_x : l ^ 3 ≤ 1.146 ^ 3 * x + (1 / 600) ^ 3 ∧
    m ^ 3 ≤ 1.173 ^ 3 * x + (1 / 600) ^ 3 ∧ s ^ 3 ≤ 1.522 ^ 3 * x + (1 / 600) ^ 3 := by
  have hslack := slack_mem
  obtain ⟨⟨hr, -⟩, ⟨hg, -⟩, ⟨hb, -⟩, -, hx, hy, hz⟩ := h
  obtain ⟨-, hlong, hmedium, hshort⟩ := hlms
  rw [abs_le] at hx hy hz hlong hmedium hshort
  refine ⟨?_, ?_, ?_⟩ <;> linarith

lemma AreResponses.cube_le_y : l ^ 3 ≤ 1.31 ^ 3 * y + (1 / 600) ^ 3 ∧
    m ^ 3 ≤ 1.38 ^ 3 * y + (1 / 600) ^ 3 ∧ s ^ 3 ≤ 2.065 ^ 3 * y + (1 / 600) ^ 3 := by
  have hslack := slack_mem
  obtain ⟨⟨hr, -⟩, ⟨hg, -⟩, ⟨hb, -⟩, -, hx, hy, hz⟩ := h
  obtain ⟨-, hlong, hmedium, hshort⟩ := hlms
  rw [abs_le] at hx hy hz hlong hmedium hshort
  refine ⟨?_, ?_, ?_⟩ <;> linarith

lemma AreResponses.cube_le_z : l ^ 3 ≤ 2.453 ^ 3 * z + (1 / 600) ^ 3 ∧
    m ^ 3 ≤ 2.298 ^ 3 * z + (1 / 600) ^ 3 ∧ s ^ 3 ≤ 1.778 ^ 3 * z + (1 / 600) ^ 3 := by
  have hslack := slack_mem
  obtain ⟨⟨hr, -⟩, ⟨hg, -⟩, ⟨hb, -⟩, -, hx, hy, hz⟩ := h
  obtain ⟨-, hlong, hmedium, hshort⟩ := hlms
  rw [abs_le] at hx hy hz hlong hmedium hshort
  refine ⟨?_, ?_, ?_⟩ <;> linarith

/-- No response is far from the second one. -/
lemma AreResponses.near_medium : (l ≤ 1.068 * m + 1 / 600 ∧ s ≤ 1.497 * m + 1 / 600) ∧
    m ≤ 1.054 * l + 1 / 600 ∧ m ≤ 1.293 * s + 1 / 600 := by
  have hslack := slack_mem
  obtain ⟨hl, hm, hs⟩ := hlms.nonneg
  obtain ⟨⟨hr, -⟩, ⟨hg, -⟩, ⟨hb, -⟩, -, hx, hy, hz⟩ := h
  have hlong := hlms.long
  have hmedium := hlms.medium
  have hshort := hlms.short
  rw [abs_le] at hx hy hz hlong hmedium hshort
  refine ⟨⟨root_le_of_cube_le hm (by norm_num) ?_, root_le_of_cube_le hm (by norm_num) ?_⟩,
    root_le_of_cube_le hl (by norm_num) ?_, root_le_of_cube_le hs (by norm_num) ?_⟩ <;> linarith

/-- The second response is not tiny if some light is not. -/
lemma AreResponses.le_medium (hlight : 1 / 2 ^ 19 ≤ r ∨ 1 / 2 ^ 19 ≤ g ∨ 1 / 2 ^ 19 ≤ b) :
    0.007 ≤ m := by
  have hslack := slack_mem
  obtain ⟨-, hm, -⟩ := hlms.nonneg
  obtain ⟨⟨hr, -⟩, ⟨hg, -⟩, ⟨hb, -⟩, -, hx, hy, hz⟩ := h
  have hmedium := hlms.medium
  rw [abs_le] at hx hy hz hmedium
  refine (pow_le_pow_iff_left₀ (by norm_num) hm three_ne_zero).mp ?_
  rcases hlight with hlight | hlight | hlight <;> linarith

end Bounds

/-! ### Coordinates -/

section Coordinates

variable {r g b x y z l m s lightness p q : ℝ}

/-- The lightness of a colour is hardly above one, and no more below zero. -/
lemma AreCoordinates.abs_lightness_le (h : IsTristimulus r g b x y z)
    (hlms : AreResponses x y z l m s) (hlab : AreCoordinates l m s lightness p q) :
    |lightness| ≤ 1.01 := by
  have hslack := slack_mem
  obtain ⟨hl, hm, hs⟩ := hlms.nonneg
  obtain ⟨hl1, hm1, hs1⟩ := hlms.le h
  have hlightness := abs_le.mp hlab.lightness
  rw [abs_le]
  constructor <;> linarith

/-- The lightness of a colour that is not black is not negative. -/
lemma AreCoordinates.lightness_nonneg (h : IsTristimulus r g b x y z)
    (hlms : AreResponses x y z l m s) (hlab : AreCoordinates l m s lightness p q)
    (hlight : 1 / 2 ^ 19 ≤ r ∨ 1 / 2 ^ 19 ≤ g ∨ 1 / 2 ^ 19 ≤ b) : 0 ≤ lightness := by
  have hslack := slack_mem
  have hl := hlms.nonneg.1
  have hlow := hlms.le_medium h hlight
  obtain ⟨⟨-, hshort⟩, -⟩ := hlms.near_medium h
  have hlightness := abs_le.mp hlab.lightness
  linarith

/-- The chroma of a colour is moderate. -/
lemma AreCoordinates.sqrt_le (h : IsTristimulus r g b x y z) (hlms : AreResponses x y z l m s)
    (hlab : AreCoordinates l m s lightness p q) : √(p ^ 2 + q ^ 2) ≤ 0.55 := by
  have hslack := slack_mem
  obtain ⟨hl, hm, hs⟩ := hlms.nonneg
  obtain ⟨-, hm1, -⟩ := hlms.le h
  obtain ⟨⟨hlong, hshort⟩, hlong', hshort'⟩ := hlms.near_medium h
  have ha := abs_le.mp hlab.a
  have hb := abs_le.mp hlab.b
  have hp : |p| ≤ 0.365 := by
    rw [abs_le]
    constructor <;> linarith
  have hq : |q| ≤ 0.407 := by
    rw [abs_le]
    constructor <;> linarith
  refine Real.sqrt_le_iff.mpr ⟨by norm_num, ?_⟩
  have hp2 := pow_le_pow_left₀ (abs_nonneg p) hp 2
  have hq2 := pow_le_pow_left₀ (abs_nonneg q) hq 2
  rw [sq_abs] at hp2 hq2
  linarith

/-- How far responses are apart when the coordinates are off by what rounding to few decimals
costs. -/
lemma AreBackResponses.abs_sub_le {lightness' p' q' l' m' s' : ℝ} (hl : 0 ≤ l ∧ l ≤ 1)
    (hm : 0 ≤ m ∧ m ≤ 1) (hs : 0 ≤ s ∧ s ≤ 1.02) (hlab : AreCoordinates l m s lightness p q)
    (hback : AreBackResponses lightness' p' q' l' m' s')
    (hlightness : |lightness' - lightness| ≤ 51 / 10 ^ 6) (hp : |p' - p| ≤ 105 / 10 ^ 6)
    (hq : |q' - q| ≤ 105 / 10 ^ 6) :
    |l' - l| ≤ 116 / 10 ^ 6 ∧ |m' - m| ≤ 69 / 10 ^ 6 ∧ |s' - s| ≤ 197 / 10 ^ 6 := by
  have hslack := slack_mem
  obtain ⟨hL, ha, hb⟩ := hlab
  obtain ⟨hlong, hmedium, hshort⟩ := hback
  rw [abs_le] at hL ha hb hlong hmedium hshort hlightness hp hq
  refine ⟨?_, ?_, ?_⟩ <;> rw [abs_le] <;> constructor <;> linarith

end Coordinates

/-! ### Light that comes back -/

section Back

variable {r g b x y z l m s l' m' s' r' g' b' : ℝ}

/-- **The light that comes back** of responses that are off by what rounding costs is near the
tristimulus values that the responses were taken of. -/
theorem IsBackLight.abs_sub_le (h : IsTristimulus r g b x y z) (hlms : AreResponses x y z l m s)
    (hlight : IsBackLight l' m' s' r' g' b') (hl : |l' - l| ≤ 116 / 10 ^ 6)
    (hm : |m' - m| ≤ 69 / 10 ^ 6) (hs : |s' - s| ≤ 197 / 10 ^ 6) {t : ℝ} (ht : 0 ≤ t) :
    (x = t ^ 3 → |r' - x| ≤ (t + 1 / 500) ^ 2 / 180) ∧
    (y = t ^ 3 → |g' - y| ≤ (t + 1 / 500) ^ 2 / 180) ∧
    (z = t ^ 3 → |b' - z| ≤ (t + 1 / 500) ^ 2 / 180) := by
  have hslack := slack_mem
  obtain ⟨hl0, hm0, hs0⟩ := hlms.nonneg
  obtain ⟨hx1, hy1, hz1⟩ := h.le
  obtain ⟨hx0, hy0, hz0⟩ := h.nonneg
  have hlong := abs_le.mp hlms.long
  have hmedium := abs_le.mp hlms.medium
  have hshort := abs_le.mp hlms.short
  have hred := abs_le.mp hlight.red
  have hgreen := abs_le.mp hlight.green
  have hblue := abs_le.mp hlight.blue
  have hsquare : 1 / 250000 ≤ (t + 1 / 500) ^ 2 := by nlinarith
  refine ⟨fun hxt => ?_, fun hyt => ?_, fun hzt => ?_⟩
  · obtain ⟨hlx, hmx, hsx⟩ := hlms.cube_le_x h
    rw [hxt] at hlx hmx hsx
    have hl' := abs_le.mp (abs_cube_sub_le_mul ht hl0 (by norm_num) hlx hl)
    have hm' := abs_le.mp (abs_cube_sub_le_mul ht hm0 (by norm_num) hmx hm)
    have hs' := abs_le.mp (abs_cube_sub_le_mul ht hs0 (by norm_num) hsx hs)
    rw [abs_le]
    constructor <;> linarith
  · obtain ⟨hly, hmy, hsy⟩ := hlms.cube_le_y h
    rw [hyt] at hly hmy hsy
    have hl' := abs_le.mp (abs_cube_sub_le_mul ht hl0 (by norm_num) hly hl)
    have hm' := abs_le.mp (abs_cube_sub_le_mul ht hm0 (by norm_num) hmy hm)
    have hs' := abs_le.mp (abs_cube_sub_le_mul ht hs0 (by norm_num) hsy hs)
    rw [abs_le]
    constructor <;> linarith
  · obtain ⟨hlz, hmz, hsz⟩ := hlms.cube_le_z h
    rw [hzt] at hlz hmz hsz
    have hl' := abs_le.mp (abs_cube_sub_le_mul ht hl0 (by norm_num) hlz hl)
    have hm' := abs_le.mp (abs_cube_sub_le_mul ht hm0 (by norm_num) hmz hm)
    have hs' := abs_le.mp (abs_cube_sub_le_mul ht hs0 (by norm_num) hsz hs)
    rw [abs_le]
    constructor <;> linarith

end Back

end Oklab

end Swatch
