import Swatch.Proofs.Color.Companding
import Swatch.Proofs.Color.Polar
import Swatch.Proofs.Color.Wheel
import Swatch.Proofs.Decimal.Numeral
/-!
A colour by way of rounded polar coordinates.

What comes back is not the colour: the responses of the cones are taken of tristimulus values, but
they are turned back as if they had been taken of the light of the primaries.  So the bytes that
come back are those of the tristimulus values, up to one that rounding costs.

* `Oklch.IsRounding`: polar coordinates that are off by what rounding to few decimals costs.
* `Oklch.ofSample_spec`: a colour in the gamut has polar coordinates of moderate size.
* `Linear.toOklch_lightness_nonneg`: the lightness of a colour that is not black.
* `Oklch.IsRounding.exists_toBytes`: the bytes that come back.
-/

namespace Swatch

open Binary64

namespace Oklch

/-- Polar coordinates that are off by what rounding to few decimals costs: the lightness and the
chroma by half of `10 ^ -4`, the hue by half a hundredth of a degree, and by what reading adds. -/
structure IsRounding (c p : Oklch) : Prop where
  lightness_mem : Between 0 2 p.lightness
  chroma_mem : Between 0 1 p.chroma
  hue_mem : Between 0 361 p.hue
  lightness : |p.lightness.value - c.lightness.value| ≤ 51 / 10 ^ 6
  chroma : |p.chroma.value - c.chroma.value| ≤ 501 / 10 ^ 7
  hue : |p.hue.value - c.hue.value| ≤ 5001 / 10 ^ 6

end Oklch

/-- Tristimulus values, each in the place of a channel. -/
def Xyz.channel (c : Xyz) (x : Channel) : Binary64 := Channel.pick c.x c.y c.z x

/-- The light of a channel. -/
def Linear.channel (c : Linear) (x : Channel) : Binary64 := Channel.pick c.red c.green c.blue x

/-- A bound between rational numbers, as one between real numbers. -/
lemma abs_cast_sub_le {u v δ : ℚ} (h : |u - v| ≤ δ) : |(u : ℝ) - v| ≤ δ := by
  exact_mod_cast h

variable [Elementary] [Elementary.IsAccurate] {light : Linear}

/-- The way to rectangular coordinates. -/
lemma Linear.toOklab_spec (hr : Between 0 1 light.red) (hg : Between 0 1 light.green)
    (hb : Between 0 1 light.blue) :
    (light.toXyz.toOklab.lightness.isFinite = true ∧ light.toXyz.toOklab.a.isFinite = true ∧
      light.toXyz.toOklab.b.isFinite = true) ∧
    Oklab.IsTristimulus light.red.value light.green.value light.blue.value light.toXyz.x.value
      light.toXyz.y.value light.toXyz.z.value ∧
    ∃ l m s : ℝ, Oklab.AreResponses light.toXyz.x.value light.toXyz.y.value light.toXyz.z.value
      l m s ∧ Oklab.AreCoordinates l m s light.toXyz.toOklab.lightness.value
        light.toXyz.toOklab.a.value light.toXyz.toOklab.b.value := by
  obtain ⟨⟨hx, hy, hz⟩, htristimulus⟩ := Linear.toXyz_spec hr hg hb
  have hle := htristimulus.le
  have hcast {q : ℚ} (h : (q : ℝ) ≤ 1.1) : q ≤ 1.1 := by
    have h' : (q : ℝ) ≤ ((1.1 : ℚ) : ℝ) := by
      push_cast
      exact h
    exact_mod_cast h'
  obtain ⟨hfinite, hresponses⟩ := Xyz.toOklab_spec hx hy hz
    ⟨hcast (by linarith [hle.1]), hcast (by linarith [hle.2.1]), hcast (by linarith [hle.2.2])⟩
  exact ⟨hfinite, htristimulus, hresponses⟩

/-- The polar coordinates of a colour. -/
lemma Linear.toOklch_mem (hr : Between 0 1 light.red) (hg : Between 0 1 light.green)
    (hb : Between 0 1 light.blue) :
    Between (-(3 / 2)) (3 / 2) light.toXyz.toOklab.toOklch.lightness ∧
      Between 0 1 light.toXyz.toOklab.toOklch.chroma ∧
      Between 0 360 light.toXyz.toOklab.toOklch.hue := by
  obtain ⟨⟨hLf, haf, hbf⟩, htristimulus, l, m, s, hlms, hlab⟩ := Linear.toOklab_spec hr hg hb
  obtain ⟨hchroma, -⟩ := Oklab.chroma_spec haf hbf (hlab.sqrt_le htristimulus hlms)
  obtain ⟨hhue, -⟩ := Oklab.hue_spec haf hbf
  have hlightness := (hlab.abs_lightness_le htristimulus hlms).trans
    (by norm_num : (1.01 : ℝ) ≤ ((3 / 2 : ℚ) : ℝ))
  have hbound := abs_le.mp (by exact_mod_cast hlightness :
    |light.toXyz.toOklab.lightness.value| ≤ 3 / 2)
  exact ⟨⟨hLf, hbound.1, hbound.2⟩, hchroma, hhue⟩

/-- The lightness of a colour that is not black. -/
lemma Linear.toOklch_lightness_nonneg (hr : Between 0 1 light.red) (hg : Between 0 1 light.green)
    (hb : Between 0 1 light.blue) (hlight : 1 / 2 ^ 19 ≤ light.red.value ∨
      1 / 2 ^ 19 ≤ light.green.value ∨ 1 / 2 ^ 19 ≤ light.blue.value) :
    0 ≤ light.toXyz.toOklab.toOklch.lightness.value := by
  obtain ⟨-, htristimulus, l, m, s, hlms, hlab⟩ := Linear.toOklab_spec hr hg hb
  have hcast {q : ℚ} (h : 1 / 2 ^ 19 ≤ q) : 1 / 2 ^ 19 ≤ (q : ℝ) := by
    have h' : ((1 / 2 ^ 19 : ℚ) : ℝ) ≤ q := Rat.cast_le.mpr h
    push_cast at h'
    exact h'
  exact_mod_cast hlab.lightness_nonneg htristimulus hlms (hlight.imp hcast (Or.imp hcast hcast))

/-- A colour in the gamut has polar coordinates of moderate size. -/
theorem Oklch.ofSample_spec {s : Sample} (hs : s.InGamut) :
    ∃ c, Oklch.ofSample s = .ok c ∧ Between (-(3 / 2)) (3 / 2) c.lightness ∧
      Between 0 1 c.chroma ∧ Between 0 360 c.hue := by
  obtain ⟨red, hred, hr⟩ := linearOfByte_spec hs.red
  obtain ⟨green, hgreen, hg⟩ := linearOfByte_spec hs.green
  obtain ⟨blue, hblue, hb⟩ := linearOfByte_spec hs.blue
  refine ⟨(Linear.mk red green blue).toXyz.toOklab.toOklch, ?_, Linear.toOklch_mem hr hg hb⟩
  simp only [Oklch.ofSample, hred, hgreen, hblue]
  rfl

namespace Oklch.IsRounding

variable {p : Oklch}

section Coordinates

variable {lab : Oklab} (hp : lab.toOklch.IsRounding p) (ha : lab.a.isFinite = true)
  (hb : lab.b.isFinite = true)

include hp ha hb

omit [Elementary.IsAccurate] in
/-- The rounded chroma, next to the distance from the origin. -/
lemma abs_chroma_sub_le (hρ : √((lab.a.value : ℝ) ^ 2 + (lab.b.value : ℝ) ^ 2) ≤ 0.55) :
    |(p.chroma.value : ℝ) - √((lab.a.value : ℝ) ^ 2 + (lab.b.value : ℝ) ^ 2)|
      ≤ 541 / 10 ^ 7 := by
  obtain ⟨-, hchroma⟩ := Oklab.chroma_spec ha hb hρ
  have hrounded := abs_cast_sub_le hp.chroma
  push_cast at hrounded
  refine (abs_sub_le _ (lab.toOklch.chroma.value : ℝ) _).trans
    ((add_le_add hrounded hchroma).trans ?_)
  norm_num

/-- The rounded hue, next to a direction. -/
lemma exists_direction : ∃ φ : ℝ, IsDirection lab.a.value lab.b.value φ ∧
    |(p.hue.value : ℝ) * (Real.pi / 180) - φ| ≤ 873 / 10 ^ 7 := by
  obtain ⟨-, φ, hφ, hhue⟩ := Oklab.hue_spec ha hb
  refine ⟨φ, hφ, ?_⟩
  have hrounded := abs_cast_sub_le hp.hue
  push_cast at hrounded
  have hscaled : |(p.hue.value : ℝ) * (Real.pi / 180) - lab.toOklch.hue.value * (Real.pi / 180)|
      ≤ 5001 / 10 ^ 6 * (3.1416 / 180) := by
    rw [← sub_mul, abs_mul, abs_of_pos (by positivity : 0 < Real.pi / 180)]
    exact mul_le_mul hrounded (by linarith [Real.pi_lt_d20]) (by positivity) (by norm_num)
  refine (abs_sub_le _ (lab.toOklch.hue.value * (Real.pi / 180)) _).trans
    ((add_le_add hscaled hhue).trans ?_)
  norm_num

/-- The rectangular coordinates that come back. -/
lemma exists_toOklab (hρ : √((lab.a.value : ℝ) ^ 2 + (lab.b.value : ℝ) ^ 2) ≤ 0.55) :
    ∃ a b : Binary64, p.toOklab = .ok ⟨p.lightness, a, b⟩ ∧ NearWithin 0 1 a.value a ∧
      NearWithin 0 1 b.value b ∧ |(a.value : ℝ) - lab.a.value| ≤ 105 / 10 ^ 6 ∧
      |(b.value : ℝ) - lab.b.value| ≤ 105 / 10 ^ 6 := by
  obtain ⟨φ, hφ, hh⟩ := hp.exists_direction ha hb
  obtain ⟨a, b, hback, haf, hbf, haa, hbb⟩ :=
    Oklch.toOklab_spec hp.chroma_mem hp.hue_mem hφ hρ (hp.abs_chroma_sub_le ha hb hρ) hh
  have hsquares := (Real.sqrt_le_left (by norm_num)).mp hρ
  -- both coordinates of a point are at most its distance from the origin
  have hsmall {u : ℝ} {x : Binary64} (hx : x.isFinite = true)
      (hu : |(x.value : ℝ) - u| ≤ 105 / 10 ^ 6) (husq : u ^ 2 ≤ 0.55 ^ 2) :
      NearWithin 0 1 x.value x := by
    have hone : |(x.value : ℝ)| ≤ 1 := by
      linarith [abs_sub_abs_le_abs_sub (x.value : ℝ) u, abs_le_of_sq_le_sq husq (by norm_num)]
    exact nearWithin_self hx (by exact_mod_cast hone)
  exact ⟨a, b, hback, hsmall haf haa (by linarith [sq_nonneg (lab.b.value : ℝ)]),
    hsmall hbf hbb (by linarith [sq_nonneg (lab.a.value : ℝ)]), haa, hbb⟩

end Coordinates

/-- The light that comes back of rounded coordinates is near the tristimulus values. -/
lemma exists_toLinear (hr : Between 0 1 light.red) (hg : Between 0 1 light.green)
    (hb : Between 0 1 light.blue) (hp : light.toXyz.toOklab.toOklch.IsRounding p) :
    ∃ c : Oklab, p.toOklab = .ok c ∧ ∀ x, (c.toLinear.channel x).isFinite = true ∧
      ∃ t : ℝ, 0 ≤ t ∧ t ≤ 1.03 ∧ ((light.toXyz.channel x).value : ℝ) = t ^ 3 ∧
        |((c.toLinear.channel x).value : ℝ) - (light.toXyz.channel x).value|
          ≤ (t + 1 / 500) ^ 2 / 180 := by
  obtain ⟨⟨-, haf, hbf⟩, htristimulus, l, m, s, hlms, hlab⟩ := Linear.toOklab_spec hr hg hb
  obtain ⟨a, b, hback, ha, hb, haa, hbb⟩ :=
    hp.exists_toOklab haf hbf (hlab.sqrt_le htristimulus hlms)
  set lab := light.toXyz.toOklab
  have hlightness := abs_cast_sub_le hp.lightness
  push_cast at hlightness
  obtain ⟨hl1, hm1, hs1⟩ := hlms.le htristimulus
  obtain ⟨hl0, hm0, hs0⟩ := hlms.nonneg
  have hresponses (l' m' s' : ℝ) := fun h : Oklab.AreBackResponses p.lightness.value a.value b.value
    l' m' s' => h.abs_sub_le ⟨hl0, hl1⟩ ⟨hm0, hm1⟩ ⟨hs0, hs1⟩ hlab hlightness haa hbb
  obtain ⟨⟨hredf, hgreenf, hbluef⟩, l', m', s', hback', hlight⟩ :=
    Oklab.toLinear_spec (c := ⟨p.lightness, a, b⟩)
      (nearWithin_of_between (by exact_mod_cast hp.lightness_mem)) ha hb (fun l' m' s' h => by
        obtain ⟨hl, hm, hs⟩ := hresponses l' m' s' h
        rw [abs_le] at hl hm hs ⊢
        rw [abs_le, abs_le]
        refine ⟨⟨?_, ?_⟩, ⟨?_, ?_⟩, ?_, ?_⟩ <;> linarith)
  obtain ⟨hl, hm, hs⟩ := hresponses l' m' s' hback'
  obtain ⟨hx0, hy0, hz0⟩ := htristimulus.nonneg
  obtain ⟨hx1, hy1, hz1⟩ := htristimulus.le
  refine ⟨_, hback, fun x => ?_⟩
  cases x with
  | red =>
      obtain ⟨t, ht, ht', hxt⟩ := Oklab.exists_root hx0 (by linarith)
      exact ⟨hredf, t, ht, ht', hxt, (hlight.abs_sub_le htristimulus hlms hl hm hs ht).1 hxt⟩
  | green =>
      obtain ⟨t, ht, ht', hyt⟩ := Oklab.exists_root hy0 (by linarith)
      exact ⟨hgreenf, t, ht, ht', hyt, (hlight.abs_sub_le htristimulus hlms hl hm hs ht).2.1 hyt⟩
  | blue =>
      obtain ⟨t, ht, ht', hzt⟩ := Oklab.exists_root hz0 hz1
      exact ⟨hbluef, t, ht, ht', hzt, (hlight.abs_sub_le htristimulus hlms hl hm hs ht).2.2 hzt⟩

end Oklch.IsRounding

/-- The tristimulus values of a colour. -/
def Sample.toXyz (s : Sample) : Except Fault Xyz := do
  let red ← linearOfByte s.red
  let green ← linearOfByte s.green
  let blue ← linearOfByte s.blue
  return (Linear.mk red green blue).toXyz

/-- The bytes of tristimulus values, as if they were the light of the primaries. -/
def Xyz.toBytes (c : Xyz) : Except Fault (ℤ × ℤ × ℤ) := do
  let red ← byteOfLinear c.x
  let green ← byteOfLinear c.y
  let blue ← byteOfLinear c.z
  return (red, green, blue)

/-- **The bytes that come back** of rounded coordinates are at most one from those of the
tristimulus values. -/
theorem Oklch.IsRounding.exists_toBytes (hr : Between 0 1 light.red) (hg : Between 0 1 light.green)
    (hb : Between 0 1 light.blue) {p : Oklch}
    (hp : light.toXyz.toOklab.toOklch.IsRounding p) :
    ∃ w n : Channel → ℤ, light.toXyz.toBytes = .ok (w .red, w .green, w .blue) ∧
      p.toBytes = .ok (n .red, n .green, n .blue) ∧
      ∀ x, (0 ≤ n x ∧ n x ≤ 255) ∧ |n x - w x| ≤ 1 := by
  obtain ⟨⟨hx, hy, hz⟩, -⟩ := Linear.toXyz_spec hr hg hb
  obtain ⟨c, hc, hnear⟩ := hp.exists_toLinear hr hg hb
  have hfinite (x : Channel) : (light.toXyz.channel x).isFinite = true := by
    cases x with
    | red => exact hx.isFinite
    | green => exact hy.isFinite
    | blue => exact hz.isFinite
  have hbyte (x : Channel) : ∃ w n : ℤ, byteOfLinear (light.toXyz.channel x) = .ok w ∧
      byteOfLinear (c.toLinear.channel x) = .ok n ∧ (0 ≤ n ∧ n ≤ 255) ∧ |n - w| ≤ 1 := by
    obtain ⟨hf, t, ht, ht', hcube, hle⟩ := hnear x
    exact exists_byteOfLinear_near (hfinite x) hf ht ht' hcube hle
  choose w n hw hn hle using hbyte
  refine ⟨w, n, ?_, ?_, hle⟩
  · rw [Xyz.toBytes]
    exact bind_eq_ok.mpr ⟨_, hw .red, bind_eq_ok.mpr ⟨_, hw .green,
      bind_eq_ok.mpr ⟨_, hw .blue, rfl⟩⟩⟩
  · rw [Oklch.toBytes]
    refine bind_eq_ok.mpr ⟨c, hc, ?_⟩
    rw [Oklab.toBytes]
    exact bind_eq_ok.mpr ⟨_, hn .red, bind_eq_ok.mpr ⟨_, hn .green,
      bind_eq_ok.mpr ⟨_, hn .blue, rfl⟩⟩⟩

end Swatch
