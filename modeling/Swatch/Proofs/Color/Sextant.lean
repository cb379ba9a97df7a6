import Swatch.Proofs.Color.Hsl
/-!
The hue of a colour lies in the pair of sextants of its largest channel.

In sixths of the wheel this is a matter of the order of the channels.  The step to degrees divides
by six and multiplies by 360, and both results are rounded; but rounding keeps the order, and the
ends of the sextants come out exactly.

* `largest_beq_first_iff`, `largest_beq_second_iff`: which channel is the largest.
* `Binary64.between_degrees`: sextants in degrees.
* `Hsl.ofSample_sextant`: the ranges of hue, saturation and lightness, and the sextants of the hue.
-/

namespace Swatch

open Binary64

/-! ### The largest channel -/

section Largest

variable {r g b : Binary64}

lemma largest_beq_first_iff (hr : r.isFinite = true) (hg : g.isFinite = true)
    (hb : b.isFinite = true) : ((r.max g).max b == r) = true ↔ g ≤ r ∧ b ≤ r := by
  rw [beq_iff (isFinite_max (isFinite_max hr hg) hb) hr, value_largest_eq hr hg hb, le_iff hg hr,
    le_iff hb hr, max_assoc, max_eq_left_iff, max_le_iff]

lemma largest_beq_second_iff (hr : r.isFinite = true) (hg : g.isFinite = true)
    (hb : b.isFinite = true) : ((r.max g).max b == g) = true ↔ r ≤ g ∧ b ≤ g := by
  rw [beq_iff (isFinite_max (isFinite_max hr hg) hb) hg, value_largest_eq hr hg hb, le_iff hr hg,
    le_iff hb hg, max_comm r.value, max_assoc, max_eq_left_iff, max_le_iff]

/-- Channels that are equal are the largest and the smallest. -/
lemma largest_beq_smallest (hr : r.isFinite = true) (hg : g.isFinite = true)
    (hb : b.isFinite = true) (hrg : (r == g) = true) (hgb : (g == b) = true) :
    ((r.max g).max b == (r.min g).min b) = true := by
  rw [beq_iff hr hg] at hrg
  rw [beq_iff hg hb] at hgb
  rw [beq_iff (isFinite_max (isFinite_max hr hg) hb) (isFinite_min (isFinite_min hr hg) hb),
    value_largest_eq hr hg hb, value_smallest_eq hr hg hb, hrg, hgb, max_self, max_self, min_self,
    min_self]

end Largest

/-! ### Degrees -/

namespace Binary64

/-- The ends of the sextants in degrees are found exactly. -/
lemma sextant_degrees {k : Nat} (hk : k ≤ 6) :
    (OfNat.ofNat k : Binary64) / 6 * 360 = OfNat.ofNat (60 * k) := by
  have hall : ∀ k ≤ 6, (OfNat.ofNat k : Binary64) / 6 * 360 = OfNat.ofNat (60 * k) := by
    decide +kernel
  exact hall k hk

/-- Numbers of sixths that are in order are so in degrees. -/
lemma degrees_mono {x y : Binary64} (hx : Between 0 (6 : Nat) x) (hy : Between 0 (6 : Nat) y)
    (h : x.value ≤ y.value) : (x / 6 * 360).value ≤ (y / 6 * 360).value := by
  have hsix : (6 : Binary64).isFinite = true := isFinite_ofNat (by norm_num)
  have hsix' : (6 : Binary64).value = 6 := value_ofNat (by norm_num)
  have hwheel : (360 : Binary64).isFinite = true := isFinite_ofNat (by norm_num)
  have hne : (6 : Binary64).value ≠ 0 := by rw [hsix']; norm_num
  have hpos : (0 : ℚ) ≤ (360 : Binary64).value := by rw [value_ofNat (by norm_num)]; norm_num
  have hturns {z : Binary64} (hz : Between 0 (6 : Nat) z) : Between 0 1 (z / 6) :=
    hz.div_ofNat (by norm_num) (by norm_num)
  have hdegrees {z : Binary64} (hz : Between 0 (6 : Nat) z) : Between 0 (360 : Nat) (z / 6 * 360) :=
    (hturns hz).mul_ofNat (by norm_num)
  have hdiv : (x / 6).value ≤ (y / 6).value := by
    refine (isRounded_div hx.isFinite hsix hne).value_mono (isRounded_div hy.isFinite hsix hne)
      (hturns hx).isFinite (hturns hy).isFinite ?_
    rw [hsix']
    exact div_le_div_of_nonneg_right h (by norm_num)
  exact (isRounded_mul (hturns hx).isFinite hwheel).value_mono
    (isRounded_mul (hturns hy).isFinite hwheel) (hdegrees hx).isFinite (hdegrees hy).isFinite
    (mul_le_mul_of_nonneg_right hdiv hpos)

/-- What lies between two ends of sextants lies between them in degrees. -/
lemma between_degrees {j k : Nat} {x : Binary64} (hk : k ≤ 6) (hx : Between j k x) :
    Between ((60 * j : Nat) : ℚ) ((60 * k : Nat) : ℚ) (x / 6 * 360) := by
  have hle : (j : ℚ) ≤ k := hx.le_value.trans hx.value_le
  have hj : j ≤ 6 := (Nat.cast_le.mp hle).trans hk
  have hend {n : Nat} (hn : n ≤ 6) : Between 0 (6 : Nat) (OfNat.ofNat n : Binary64) := by
    refine (between_ofNat (by omega)).mono (Nat.cast_nonneg n) (Nat.cast_le.mpr hn)
  have hvalue {n : Nat} (hn : n ≤ 6) :
      ((OfNat.ofNat n : Binary64) / 6 * 360).value = ((60 * n : Nat) : ℚ) := by
    rw [sextant_degrees hn, value_ofNat (by omega)]
  have hwhole : Between 0 (6 : Nat) x := hx.mono (Nat.cast_nonneg j) (Nat.cast_le.mpr hk)
  have hturns : Between 0 1 (x / 6) := hwhole.div_ofNat (by norm_num) (by norm_num)
  refine ⟨(hturns.mul_ofNat (n := 360) (by norm_num)).isFinite, ?_, ?_⟩
  · rw [← hvalue hj]
    refine degrees_mono (hend hj) hwhole ?_
    rw [value_ofNat (by omega)]
    exact hx.le_value
  · rw [← hvalue hk]
    refine degrees_mono hwhole (hend hk) ?_
    rw [value_ofNat (by omega)]
    exact hx.value_le

end Binary64

/-! ### The sextants of the largest channel -/

/-- The pair of sextants, in degrees, in which a hue lies by the scaled channels of its colour. -/
def InSextants (r g b hue : Binary64) : Prop :=
  if g ≤ r ∧ b ≤ r then Between 0 60 hue ∨ Between 300 360 hue
  else if r ≤ g ∧ b ≤ g then Between 60 180 hue
  else Between 180 300 hue

/-- The hue of a colour that is no grey, from sixths of the wheel to degrees. -/
lemma inSextants_of_sixths {r g b hue : Binary64} (hr : r.isFinite = true)
    (hg : g.isFinite = true) (hb : b.isFinite = true)
    (h : if (r.max g).max b == r then Between 0 1 hue ∨ Between 5 6 hue
      else if (r.max g).max b == g then Between 1 3 hue else Between 3 5 hue) :
    InSextants r g b (hue / 6 * 360) := by
  have hdegrees {j k : Nat} (hk : k ≤ 6) (h : Between (j : ℚ) k hue) := between_degrees hk h
  have hlow (h : Between 0 1 hue) : Between 0 60 (hue / 6 * 360) := by
    exact_mod_cast hdegrees (j := 0) (k := 1) (by norm_num) (by exact_mod_cast h)
  have hhigh (h : Between 5 6 hue) : Between 300 360 (hue / 6 * 360) := by
    exact_mod_cast hdegrees (j := 5) (k := 6) (by norm_num) (by exact_mod_cast h)
  simp only [largest_beq_first_iff hr hg hb, largest_beq_second_iff hr hg hb] at h
  rw [InSextants]
  split_ifs at h ⊢ with hred hgreen
  · exact h.imp hlow hhigh
  · exact_mod_cast hdegrees (j := 1) (k := 3) (by norm_num) (by exact_mod_cast h)
  · exact_mod_cast hdegrees (j := 3) (k := 5) (by norm_num) (by exact_mod_cast h)

/-- A grey has the hue zero, which lies in the sextants of the red channel. -/
lemma inSextants_of_grey {s : Sample} (hs : s.InGamut)
    (h : (s.largest == s.smallest) = true) :
    InSextants (s.red / 255) (s.green / 255) (s.blue / 255) 0 := by
  obtain ⟨hlargest, hsmallest, hr, hg, hb⟩ := largest_smallest_spec (Sample.between_scaled hs.red)
    (Sample.between_scaled hs.green) (Sample.between_scaled hs.blue)
  have hsame := (beq_iff hlargest.isFinite hsmallest.isFinite).mp h
  have hred := (le_iff hg.isFinite hr.isFinite).mpr
    ((hg.value_le.trans hsame.le).trans hr.le_value)
  have hred' := (le_iff hb.isFinite hr.isFinite).mpr
    ((hb.value_le.trans hsame.le).trans hr.le_value)
  have hends := between_ofNat (n := 0) (by norm_num)
  rw [InSextants, if_pos ⟨hred, hred'⟩]
  exact Or.inl (hends.mono (by norm_num) (by norm_num))

/-- **The range of hues**: a colour in the gamut has a hue, a saturation and a lightness within the
ranges of these, in spite of all rounding.  A grey has neither hue nor saturation, and any other hue
lies in the pair of sextants of the largest channel. -/
theorem Hsl.ofSample_sextant (s : Sample) (hs : s.InGamut) :
    let r := s.red / 255
    let g := s.green / 255
    let b := s.blue / 255
    ∃ c, Hsl.ofSample s = .ok c ∧
      (Between 0 360 c.hue ∧ Between 0 100 c.saturation ∧ Between 0 100 c.lightness) ∧
      ((r == g) = true ∧ (g == b) = true → c.hue = 0 ∧ c.saturation = 0) ∧
      InSextants r g b c.hue := by
  intro r g b
  have hr : r.isFinite = true := (Sample.between_scaled hs.red).isFinite
  have hg : g.isFinite = true := (Sample.between_scaled hs.green).isFinite
  have hb : b.isFinite = true := (Sample.between_scaled hs.blue).isFinite
  obtain ⟨c, hc, hrange⟩ := Hsl.ofSample_spec hs
  refine ⟨c, hc, ⟨hrange.hue, hrange.saturation, hrange.lightness⟩, ?_⟩
  by_cases hgrey : (s.largest == s.smallest) = true
  · obtain rfl := Except.ok.inj (hc.symm.trans (ofSample_of_grey hgrey))
    have hzero : (0 : Binary64) * 360 = 0 ∧ (0 : Binary64) * 100 = 0 := by decide +kernel
    refine ⟨fun _ => hzero, ?_⟩
    rw [hzero.1]
    exact inSextants_of_grey hs hgrey
  · obtain ⟨hue, saturation, hc', -, hsixths⟩ := ofSample_of_spread hs hgrey
    obtain rfl := Except.ok.inj (hc.symm.trans hc')
    refine ⟨fun hsame => ?_, inSextants_of_sixths hr hg hb hsixths⟩
    exact absurd (largest_beq_smallest hr hg hb hsame.1 hsame.2) hgrey

/-- Green and blue that are both the largest have a hue of the green sextants.  A grey may have
zeros of both signs as its channels. -/
theorem Hsl.ofSample_sextant_ties :
    (Sample.mk 0 255 255 none).InGamut ∧
      (∃ c, Hsl.ofSample ⟨0, 255, 255, none⟩ = .ok c ∧ Between 60 180 c.hue) ∧
      (Sample.mk 0 (-0) 0 none).InGamut ∧
      ∃ c, Hsl.ofSample ⟨0, -0, 0, none⟩ = .ok c ∧ c.hue = 0 ∧ c.saturation = 0 := by
  have hbyte {n : Nat} (hn : n ≤ 255) : Between 0 255 (OfNat.ofNat n : Binary64) :=
    (between_ofNat (by omega)).mono (Nat.cast_nonneg n) (by exact_mod_cast hn)
  have hnegative : Between 0 255 (-0 : Binary64) := by
    refine ⟨by decide +kernel, ?_, ?_⟩ <;> rw [value_neg, value_ofNat (by norm_num)] <;> norm_num
  have hcyan : (Sample.mk 0 255 255 none).InGamut :=
    ⟨hbyte (by norm_num), hbyte (by norm_num), hbyte (by norm_num)⟩
  have hgrey : (Sample.mk 0 (-0) 0 none).InGamut :=
    ⟨hbyte (by norm_num), hnegative, hbyte (by norm_num)⟩
  obtain ⟨c, hc, -, -, hsextants⟩ := Hsl.ofSample_sextant _ hcyan
  obtain ⟨d, hd, -, hnone, -⟩ := Hsl.ofSample_sextant _ hgrey
  rw [InSextants, if_neg (by decide +kernel), if_pos (by decide +kernel)] at hsextants
  exact ⟨hcyan, ⟨c, hc, hsextants⟩, hgrey, d, hd, hnone (by decide +kernel)⟩

end Swatch
