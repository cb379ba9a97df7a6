import Swatch.Color.Hsl
import Swatch.Proofs.Color.Sample
/-!
Hue, saturation and lightness of a colour in the gamut.

No division by zero comes up, and no result leaves its range, though every step is rounded: rounding
keeps the order, so that what is compared to a spread before it is rounded compares so after it.

* `Binary64.sub_value_pos`: the difference of two numbers that differ is not rounded to zero.
* `hueSixths_spec`: the hue in sixths lies in the pair of sextants of the largest channel.
* `Hsl.ofSample_of_grey`, `Hsl.ofSample_of_spread`: a colour with and one without equal channels.
* `Hsl.ofSample_spec`: a colour in the gamut has a hue, a saturation and a lightness within the
  ranges of these.
-/

namespace Swatch

open Binary64

/-! ### Differences and quotients -/

namespace Binary64

/-- Rounding keeps the order of results. -/
lemma IsRounded.value_mono {p q : ℚ} {x y : Binary64} (hx : IsRounded p x) (hy : IsRounded q y)
    (hxf : x.isFinite = true) (hyf : y.isFinite = true) (h : p ≤ q) : x.value ≤ y.value := by
  rw [hx.value_eq hxf, hy.value_eq hyf]
  exact nearest_mono h

lemma representable_unit : Representable (1 / unitsPerOne) := by
  have hpos : (0 : ℚ) ≤ 1 / unitsPerOne := by positivity
  have hgrid : Nat.log2 1 - 52 = 0 := by decide
  refine ⟨1, ⟨?_, by simp [hgrid]⟩, by rw [abs_of_nonneg hpos, Nat.cast_one]⟩
  have h := representable_one.abs_lt
  rw [lt_div_iff₀ unitsPerOne_cast_pos, abs_one, one_mul, Nat.cast_lt] at h
  exact lt_of_le_of_lt unitsPerOne_pos h

/-- The difference of two numbers that differ is not rounded to zero: it is a whole number of
units. -/
lemma sub_value_pos {x y : Binary64} (hx : x.isFinite = true) (hy : y.isFinite = true)
    (h : y.value < x.value) (hxy : (x - y).isFinite = true) : 0 < (x - y).value := by
  have hU := unitsPerOne_cast_pos
  obtain ⟨m, -, hm⟩ := place_eq hx
  obtain ⟨n, -, hn⟩ := place_eq hy
  have hunit : 1 / (unitsPerOne : ℚ) ≤ x.value - y.value := by
    rw [hm, hn, div_lt_div_iff_of_pos_right hU, Int.cast_lt] at h
    rw [hm, hn, ← sub_div]
    refine div_le_div_of_nonneg_right ?_ hU.le
    have hone : (1 : ℤ) ≤ m - n := by omega
    exact_mod_cast hone
  have hle : 1 / (unitsPerOne : ℚ) ≤ (x - y).value := by
    rw [(isRounded_sub hx hy).value_eq hxy, ← nearest_of_representable representable_unit]
    exact nearest_mono hunit
  exact lt_of_lt_of_le (by positivity) hle

variable {x y : Binary64}

lemma quotient_eq (hy : y.isFinite = true) (hne : y.value ≠ 0) :
    x.quotient y = .ok (x / y) := by
  have hzero : ¬ (y == 0) = true := by
    rw [beq_iff hy (isFinite_ofNat (by norm_num)), value_ofNat (by norm_num)]
    exact_mod_cast hne
  rw [quotient, if_neg hzero]

/-- A quotient keeps to the bounds that the divisor sets. -/
lemma between_div {l u : ℤ} (hx : x.isFinite = true) (hy : y.isFinite = true)
    (hpos : 0 < y.value) (hl : l.natAbs ≤ 2 ^ 53) (hu : u.natAbs ≤ 2 ^ 53)
    (h1 : l * y.value ≤ x.value) (h2 : x.value ≤ u * y.value) : Between l u (x / y) :=
  (isRounded_div hx hy hpos.ne').between (representable_intCast hl) (representable_intCast hu)
    ((le_div_iff₀ hpos).mpr h1) ((div_le_iff₀ hpos).mpr h2)

lemma Between.add_ofNat {l u : ℤ} {n : Nat} (hx : Between l u x) (hn : n ≤ 2 ^ 53)
    (hl : (l + n).natAbs ≤ 2 ^ 53) (hu : (u + n).natAbs ≤ 2 ^ 53) :
    Between ((l + n : ℤ) : ℚ) ((u + n : ℤ) : ℚ) (x + OfNat.ofNat n) := by
  refine (isRounded_add hx.isFinite (isFinite_ofNat hn)).between (representable_intCast hl)
    (representable_intCast hu) ?_ ?_ <;> rw [value_ofNat hn] <;> push_cast
  · linarith [hx.le_value]
  · linarith [hx.value_le]

/-- A number between zero and one, scaled. -/
lemma Between.mul_ofNat {n : Nat} (hx : Between 0 1 x) (hn : n ≤ 2 ^ 53) :
    Between 0 n (x * OfNat.ofNat n) := by
  have hpos : (0 : ℚ) ≤ n := Nat.cast_nonneg n
  refine (isRounded_mul hx.isFinite (isFinite_ofNat hn)).between (representable_natCast (n := 0)
    (by norm_num)) (representable_natCast hn) ?_ ?_ <;> rw [value_ofNat hn]
  · exact mul_nonneg hx.le_value hpos
  · exact mul_le_of_le_one_left hpos hx.value_le

/-- A number between zero and a whole number, divided by it. -/
lemma Between.div_ofNat {n : Nat} (hx : Between 0 n x) (hpos : 0 < n) (hn : n ≤ 2 ^ 53) :
    Between 0 1 (x / OfNat.ofNat n) := by
  have hvalue : (OfNat.ofNat n : Binary64).value = n := value_ofNat hn
  have hposq : (0 : ℚ) < n := Nat.cast_pos.mpr hpos
  have h := between_div (l := 0) (u := 1) hx.isFinite (isFinite_ofNat hn)
    (by rw [hvalue]; exact hposq) (by norm_num) (by norm_num) (by simpa using hx.le_value)
    (by simpa [hvalue] using hx.value_le)
  simpa using h

end Binary64

/-! ### Channels between zero and one -/

/-- Channels between two bounds that are themselves numbers between zero and one. -/
structure Spread (largest smallest : Binary64) : Prop where
  between_largest : Between 0 1 largest
  between_smallest : Between 0 1 smallest
  lt : smallest.value < largest.value

namespace Spread

variable {largest smallest x y : Binary64}

lemma between_sub (h : Spread largest smallest) : Between 0 1 (largest - smallest) := by
  refine (isRounded_sub h.between_largest.isFinite h.between_smallest.isFinite).between
    (representable_natCast (n := 0) (by norm_num))
    representable_one ?_ ?_
  · linarith [h.lt]
  · linarith [h.between_largest.value_le, h.between_smallest.le_value]

lemma sub_pos (h : Spread largest smallest) : 0 < (largest - smallest).value :=
  sub_value_pos h.between_largest.isFinite h.between_smallest.isFinite h.lt h.between_sub.isFinite

/-- The difference of two channels between the bounds is at most the spread, and stays so when both
are rounded. -/
lemma between_sub_div (h : Spread largest smallest) (hx : Between smallest.value largest.value x)
    (hy : Between smallest.value largest.value y) :
    Between (-1) 1 ((x - y) / (largest - smallest))
      ∧ (y.value ≤ x.value → Between 0 1 ((x - y) / (largest - smallest)))
      ∧ (x.value ≤ y.value → Between (-1) 0 ((x - y) / (largest - smallest))) := by
  have hspread := isRounded_sub h.between_largest.isFinite h.between_smallest.isFinite
  have hspreadf := h.between_sub.isFinite
  have hxy := isRounded_sub hx.isFinite hy.isFinite
  have hspan : largest.value - smallest.value ≤ 1 := by
    linarith [h.between_largest.value_le, h.between_smallest.le_value]
  have hxyf : (x - y).isFinite = true :=
    (hxy.between representable_one.neg representable_one
      (by linarith [hx.le_value, hy.value_le]) (by linarith [hx.value_le, hy.le_value])).isFinite
  have hupper : (x - y).value ≤ (largest - smallest).value :=
    hxy.value_mono hspread hxyf hspreadf (by linarith [hx.value_le, hy.le_value])
  have hlower : -(largest - smallest).value ≤ (x - y).value := by
    rw [hspread.value_eq hspreadf, hxy.value_eq hxyf, ← nearest_neg]
    exact nearest_mono (by linarith [hx.le_value, hy.value_le])
  have hdiv {l u : ℤ} (hl : l.natAbs ≤ 2 ^ 53) (hu : u.natAbs ≤ 2 ^ 53) :=
    between_div hxyf hspreadf h.sub_pos hl hu
  refine ⟨?_, fun hle => ?_, fun hle => ?_⟩
  · have hq := hdiv (l := -1) (u := 1) (by norm_num) (by norm_num) (by push_cast; linarith)
      (by push_cast; linarith)
    exact_mod_cast hq
  · have hnonneg : 0 ≤ (x - y).value := by
      rw [hxy.value_eq hxyf]
      exact nearest_nonneg (by linarith)
    have hq := hdiv (l := 0) (u := 1) (by norm_num) (by norm_num) (by push_cast; linarith)
      (by push_cast; linarith)
    exact_mod_cast hq
  · have hnonpos : (x - y).value ≤ 0 := by
      rw [hxy.value_eq hxyf, ← nearest_zero]
      exact nearest_mono (by linarith)
    have hq := hdiv (l := -1) (u := 0) (by norm_num) (by norm_num) (by push_cast; linarith)
      (by push_cast; linarith)
    exact_mod_cast hq

end Spread

/-! ### The hue -/

/-- The hue in sixths lies around the channel that is the largest. -/
theorem hueSixths_spec {r g b largest smallest : Binary64} (h : Spread largest smallest)
    (hr : Between smallest.value largest.value r) (hg : Between smallest.value largest.value g)
    (hb : Between smallest.value largest.value b) :
    ∃ x, hueSixths r g b largest (largest - smallest) = .ok x ∧
      if largest == r then Between 0 1 x ∨ Between 5 6 x
      else if largest == g then Between 1 3 x else Between 3 5 x := by
  have hquotient (x : Binary64) := quotient_eq (x := x) h.between_sub.isFinite h.sub_pos.ne'
  rw [hueSixths]
  split_ifs with hred hgreen hlt
  · -- a hue below zero is taken once around the wheel
    have hle := ((lt_iff hg.isFinite hb.isFinite).mp hgreen).le
    have hq := (h.between_sub_div hg hb).2.2 hle
    refine ⟨(g - b) / (largest - smallest) + 6, by rw [hquotient]; rfl, Or.inr ?_⟩
    have := Between.add_ofNat (l := -1) (u := 0) (n := 6) (by exact_mod_cast hq) (by norm_num)
      (by norm_num) (by norm_num)
    exact_mod_cast this
  · have hle := not_lt.mp (mt (lt_iff hg.isFinite hb.isFinite).mpr hgreen)
    have hq := (h.between_sub_div hg hb).2.1 hle
    refine ⟨(g - b) / (largest - smallest) + 0, by rw [hquotient]; rfl, Or.inl ?_⟩
    have := Between.add_ofNat (l := 0) (u := 1) (n := 0) (by exact_mod_cast hq) (by norm_num)
      (by norm_num) (by norm_num)
    exact_mod_cast this
  · have hq := (h.between_sub_div hb hr).1
    refine ⟨(b - r) / (largest - smallest) + 2, by rw [hquotient]; rfl, ?_⟩
    have := Between.add_ofNat (l := -1) (u := 1) (n := 2) (by exact_mod_cast hq) (by norm_num)
      (by norm_num) (by norm_num)
    exact_mod_cast this
  · have hq := (h.between_sub_div hr hg).1
    refine ⟨(r - g) / (largest - smallest) + 4, by rw [hquotient]; rfl, ?_⟩
    have := Between.add_ofNat (l := -1) (u := 1) (n := 4) (by exact_mod_cast hq) (by norm_num)
      (by norm_num) (by norm_num)
    exact_mod_cast this

/-! ### The saturation -/

/-- The sum of two channels is at least their spread, and so is what is left of two by both. -/
lemma saturation_spec {largest smallest : Binary64} (h : Spread largest smallest) :
    ∃ x, (if 0.5 < (largest + smallest) / 2
        then (largest - smallest).quotient (2 - largest - smallest)
        else (largest - smallest).quotient (largest + smallest)) = .ok x ∧ Between 0 1 x := by
  have hspreadf := h.between_sub.isFinite
  have hspread := isRounded_sub h.between_largest.isFinite h.between_smallest.isFinite
  -- a divisor that is at least the spread gives a saturation
  have hdivisor {y : Binary64} (hy : y.isFinite = true)
      (hle : (largest - smallest).value ≤ y.value) :
      ∃ x, (largest - smallest).quotient y = .ok x ∧ Between 0 1 x := by
    have hpos : 0 < y.value := h.sub_pos.trans_le hle
    refine ⟨_, quotient_eq hy hpos.ne', ?_⟩
    have hq := between_div (l := 0) (u := 1) hspreadf hy hpos (by norm_num) (by norm_num)
      (by push_cast; linarith [h.sub_pos]) (by push_cast; linarith)
    exact_mod_cast hq
  split_ifs with hlight
  · have htwof : (2 : Binary64).isFinite = true := isFinite_ofNat (by norm_num)
    have htwo : (2 : Binary64).value = 2 := value_ofNat (by norm_num)
    have hrest : Between 1 2 (2 - largest) := by
      have hsub := isRounded_sub htwof h.between_largest.isFinite
      have hq := hsub.between (representable_natCast (n := 1) (by norm_num))
        (representable_natCast (n := 2) (by norm_num))
        (by rw [htwo]; push_cast; linarith [h.between_largest.value_le])
        (by rw [htwo]; push_cast; linarith [h.between_largest.le_value])
      exact_mod_cast hq
    have hsub := isRounded_sub hrest.isFinite h.between_smallest.isFinite
    have hf : (2 - largest - smallest).isFinite = true := by
      have hq := hsub.between (representable_natCast (n := 0) (by norm_num))
        (representable_natCast (n := 2) (by norm_num))
        (by push_cast; linarith [h.between_largest.value_le, h.lt, hrest.le_value])
        (by push_cast; linarith [h.between_smallest.le_value, hrest.value_le])
      exact hq.isFinite
    refine hdivisor hf (hspread.value_mono hsub hspreadf hf ?_)
    linarith [h.between_largest.value_le, hrest.le_value]
  · have hsum := isRounded_add h.between_largest.isFinite h.between_smallest.isFinite
    have hf : (largest + smallest).isFinite = true := by
      have hq := hsum.between (representable_natCast (n := 0) (by norm_num))
        (representable_natCast (n := 2) (by norm_num))
        (by push_cast; linarith [h.between_smallest.le_value, h.lt])
        (by push_cast; linarith [h.between_largest.value_le, h.lt])
      exact hq.isFinite
    refine hdivisor hf (hspread.value_mono hsum hspreadf hf ?_)
    linarith [h.between_smallest.le_value]

/-! ### All three -/

lemma between_ofNat {n : Nat} (hn : n ≤ 2 ^ 53) : Between n n (OfNat.ofNat n : Binary64) :=
  ⟨isFinite_ofNat hn, (value_ofNat hn).ge, (value_ofNat hn).le⟩

/-- The hue, the saturation and the lightness of a colour lie within the ranges of these. -/
structure Hsl.InRange (c : Hsl) : Prop where
  hue : Between 0 360 c.hue
  saturation : Between 0 100 c.saturation
  lightness : Between 0 100 c.lightness

section Three

variable {r g b : Binary64}

lemma value_largest_eq (hr : r.isFinite = true) (hg : g.isFinite = true) (hb : b.isFinite = true) :
    ((r.max g).max b).value = max (max r.value g.value) b.value := by
  rw [value_max (isFinite_max hr hg) hb, value_max hr hg]

lemma value_smallest_eq (hr : r.isFinite = true) (hg : g.isFinite = true)
    (hb : b.isFinite = true) : ((r.min g).min b).value = min (min r.value g.value) b.value := by
  rw [value_min (isFinite_min hr hg) hb, value_min hr hg]

end Three

/-- The largest and the smallest of three channels, and the channels between them. -/
lemma largest_smallest_spec {r g b : Binary64} (hr : Between 0 1 r) (hg : Between 0 1 g)
    (hb : Between 0 1 b) : Between 0 1 ((r.max g).max b) ∧ Between 0 1 ((r.min g).min b) ∧
      Between ((r.min g).min b).value ((r.max g).max b).value r ∧
      Between ((r.min g).min b).value ((r.max g).max b).value g ∧
      Between ((r.min g).min b).value ((r.max g).max b).value b := by
  have hmaxf := isFinite_max hr.isFinite hg.isFinite
  have hminf := isFinite_min hr.isFinite hg.isFinite
  have hmax := value_largest_eq hr.isFinite hg.isFinite hb.isFinite
  have hmin := value_smallest_eq hr.isFinite hg.isFinite hb.isFinite
  rw [hmax, hmin]
  refine ⟨⟨isFinite_max hmaxf hb.isFinite, ?_, ?_⟩, ⟨isFinite_min hminf hb.isFinite, ?_, ?_⟩,
    ⟨hr.isFinite, ?_, ?_⟩, ⟨hg.isFinite, ?_, ?_⟩, ⟨hb.isFinite, ?_, ?_⟩⟩
  · rw [hmax]
    exact hb.le_value.trans (le_max_right _ _)
  · rw [hmax]
    exact max_le (max_le hr.value_le hg.value_le) hb.value_le
  · rw [hmin]
    exact le_min (le_min hr.le_value hg.le_value) hb.le_value
  · rw [hmin]
    exact (min_le_right _ _).trans hb.value_le
  · exact (min_le_left _ _).trans (min_le_left _ _)
  · exact (le_max_left _ _).trans (le_max_left _ _)
  · exact (min_le_left _ _).trans (min_le_right _ _)
  · exact (le_max_right _ _).trans (le_max_left _ _)
  · exact min_le_right _ _
  · exact le_max_right _ _

/-- The mean of two numbers between zero and one lies there too. -/
lemma between_mean {x y : Binary64} (hx : Between 0 1 x) (hy : Between 0 1 y) :
    Between 0 1 ((x + y) / 2) := by
  refine Between.div_ofNat (n := 2) ?_ (by norm_num) (by norm_num)
  have hq := (isRounded_add hx.isFinite hy.isFinite).between
    (representable_natCast (n := 0) (by norm_num)) (representable_natCast (n := 2) (by norm_num))
    (by push_cast; linarith [hx.le_value, hy.le_value])
    (by push_cast; linarith [hx.value_le, hy.value_le])
  exact_mod_cast hq

namespace Sample

/-- The largest of the scaled channels. -/
def largest (s : Sample) : Binary64 := ((s.red / 255).max (s.green / 255)).max (s.blue / 255)

/-- The smallest of the scaled channels. -/
def smallest (s : Sample) : Binary64 := ((s.red / 255).min (s.green / 255)).min (s.blue / 255)

/-- The lightness of a colour between zero and one. -/
def lightness (s : Sample) : Binary64 := (s.largest + s.smallest) / 2

lemma between_scaled {x : Binary64} (hx : Between 0 255 x) : Between 0 1 (x / 255) :=
  Between.div_ofNat (by exact_mod_cast hx) (by norm_num) (by norm_num)

lemma InGamut.between_lightness {s : Sample} (hs : s.InGamut) : Between 0 1 s.lightness := by
  obtain ⟨hlargest, hsmallest, -⟩ := largest_smallest_spec (between_scaled hs.red)
    (between_scaled hs.green) (between_scaled hs.blue)
  exact between_mean hlargest hsmallest

end Sample

namespace Hsl

/-- A colour is a grey if its largest channel is the smallest. -/
lemma ofSample_of_grey {s : Sample} (h : (s.largest == s.smallest) = true) :
    Hsl.ofSample s = .ok ⟨0 * 360, 0 * 100, s.lightness * 100⟩ :=
  if_pos h

/-- A colour that is no grey, by its saturation and its hue in sixths. -/
lemma ofSample_of_steps {s : Sample} {hue saturation : Binary64}
    (h : ¬ (s.largest == s.smallest) = true)
    (hsaturation : (if 0.5 < (s.largest + s.smallest) / 2
        then (s.largest - s.smallest).quotient (2 - s.largest - s.smallest)
        else (s.largest - s.smallest).quotient (s.largest + s.smallest)) = .ok saturation)
    (hhue : hueSixths (s.red / 255) (s.green / 255) (s.blue / 255) s.largest
        (s.largest - s.smallest) = .ok hue) :
    Hsl.ofSample s = .ok ⟨hue / 6 * 360, saturation * 100, s.lightness * 100⟩ := by
  have hsteps : Hsl.ofSample s = (do
      let saturation ←
        if 0.5 < (s.largest + s.smallest) / 2
        then (s.largest - s.smallest).quotient (2 - s.largest - s.smallest)
        else (s.largest - s.smallest).quotient (s.largest + s.smallest)
      let hue := (← hueSixths (s.red / 255) (s.green / 255) (s.blue / 255) s.largest
        (s.largest - s.smallest)) / 6
      return ⟨hue * 360, saturation * 100, s.lightness * 100⟩) := if_neg h
  rw [hsteps]
  split_ifs at hsaturation ⊢ <;> rw [hsaturation] <;> simp only [hhue] <;> rfl

/-- The hue and the saturation of a colour that is no grey. -/
theorem ofSample_of_spread {s : Sample} (hs : s.InGamut) (h : ¬ (s.largest == s.smallest) = true) :
    ∃ hue saturation,
      Hsl.ofSample s = .ok ⟨hue / 6 * 360, saturation * 100, s.lightness * 100⟩ ∧
      Between 0 1 saturation ∧
      if s.largest == s.red / 255 then Between 0 1 hue ∨ Between 5 6 hue
      else if s.largest == s.green / 255 then Between 1 3 hue else Between 3 5 hue := by
  obtain ⟨hlargest, hsmallest, hr, hg, hb⟩ := largest_smallest_spec (Sample.between_scaled hs.red)
    (Sample.between_scaled hs.green) (Sample.between_scaled hs.blue)
  have hlt : s.smallest.value < s.largest.value := by
    refine lt_of_le_of_ne (hr.le_value.trans hr.value_le) fun heq => h ?_
    exact (beq_iff hlargest.isFinite hsmallest.isFinite).mpr heq.symm
  have hspread : Spread s.largest s.smallest := ⟨hlargest, hsmallest, hlt⟩
  obtain ⟨saturation, hsaturation, hsat⟩ := saturation_spec hspread
  obtain ⟨hue, hhue, hrange⟩ := hueSixths_spec hspread hr hg hb
  exact ⟨hue, saturation, ofSample_of_steps h hsaturation hhue, hsat, hrange⟩

/-- A colour in the gamut has a hue, a saturation and a lightness. -/
theorem ofSample_spec {s : Sample} (hs : s.InGamut) :
    ∃ c, Hsl.ofSample s = .ok c ∧ c.InRange := by
  have hlight := hs.between_lightness
  by_cases hgrey : (s.largest == s.smallest) = true
  · have hzero : Between 0 1 (0 : Binary64) := by
      have h := between_ofNat (n := 0) (by norm_num)
      exact Between.mono (by exact_mod_cast h) le_rfl (by norm_num)
    exact ⟨_, ofSample_of_grey hgrey, hzero.mul_ofNat (by norm_num), hzero.mul_ofNat (by norm_num),
      hlight.mul_ofNat (by norm_num)⟩
  · obtain ⟨hue, saturation, hc, hsat, hrange⟩ := ofSample_of_spread hs hgrey
    have hsixths : Between 0 (6 : Nat) hue := by
      split_ifs at hrange
      · rcases hrange with h | h <;> exact h.mono (by norm_num) (by norm_num)
      · exact hrange.mono (by norm_num) (by norm_num)
      · exact hrange.mono (by norm_num) (by norm_num)
    have hwheel : Between 0 1 (hue / 6) := hsixths.div_ofNat (by norm_num) (by norm_num)
    exact ⟨_, hc, hwheel.mul_ofNat (by norm_num), hsat.mul_ofNat (by norm_num),
      hlight.mul_ofNat (by norm_num)⟩

end Hsl

end Swatch
