import Mathlib.Algebra.Order.Group.MinMax
import Mathlib.Tactic
import Swatch.Fault
/-!
Hue, saturation and lightness in exact numbers.

Around the wheel every channel rises over one sixth, stays at the top for two sixths, falls over one
sixth and stays at the bottom for two, each channel two sixths behind the one before.

* `ExactHsl.channel`: a channel of a colour by hue, saturation and lightness.
* `ExactHsl.ofChannels`: the hue, the saturation and the lightness of three channels.
* `ExactHsl.channel_ofChannels`: the channels are those of that hue, saturation and lightness.
* `ExactHsl.abs_channel_sub_le`: how far a channel moves with the hue, the saturation and the
  lightness.
* `ExactHsl.weight_eq_sextantChannels`: within a sixth of the wheel one channel is at the top, one
  at the bottom, and the third moves.
-/

namespace Swatch

/-- One of three things by channel. -/
def Channel.pick {α : Type} (red green blue : α) : Channel → α
  | .red => red
  | .green => green
  | .blue => blue

/-- A colour by hue in sixths of the wheel, saturation and lightness, the latter two between zero
and one. -/
structure ExactHsl where
  hue : ℚ
  saturation : ℚ
  lightness : ℚ

namespace ExactHsl

/-! ### Around the wheel -/

/-- A rise to one over one sixth of the wheel, two sixths around a centre, and a fall. -/
def plateau (center h : ℚ) : ℚ := max 0 (min 1 (2 - |h - center|))

/-- How far a channel stands above the smallest, relative to how far the largest does. -/
def weight (h : ℚ) : Channel → ℚ :=
  Channel.pick (1 - plateau 3 h) (plateau 2 h) (plateau 4 h)

section Plateau

variable {center h : ℚ}

lemma plateau_mem (center h : ℚ) : 0 ≤ plateau center h ∧ plateau center h ≤ 1 :=
  ⟨le_max_left _ _, max_le zero_le_one (min_le_left _ _)⟩

lemma plateau_of_far (hfar : 2 ≤ |h - center|) : plateau center h = 0 := by
  rw [plateau, max_eq_left]
  exact (min_le_right _ _).trans (by linarith)

lemma plateau_of_near (hnear : |h - center| ≤ 1) : plateau center h = 1 := by
  rw [plateau, min_eq_left (by linarith), max_eq_right zero_le_one]

lemma plateau_of_slope (h1 : 1 ≤ |h - center|) (h2 : |h - center| ≤ 2) :
    plateau center h = 2 - |h - center| := by
  rw [plateau, min_eq_right (by linarith), max_eq_right (by linarith)]

lemma plateau_rising (h1 : center - 2 ≤ h) (h2 : h ≤ center - 1) :
    plateau center h = h - (center - 2) := by
  have habs : |h - center| = center - h := by
    rw [abs_of_nonpos (by linarith), neg_sub]
  rw [plateau_of_slope (by linarith) (by linarith), habs]
  ring

lemma plateau_falling (h1 : center + 1 ≤ h) (h2 : h ≤ center + 2) :
    plateau center h = center + 2 - h := by
  have habs : |h - center| = h - center := abs_of_nonneg (by linarith)
  rw [plateau_of_slope (by linarith) (by linarith), habs]
  ring

lemma abs_plateau_sub_le (center h k : ℚ) : |plateau center h - plateau center k| ≤ |h - k| := by
  have hmin : |min 1 (2 - |h - center|) - min 1 (2 - |k - center|)|
      ≤ |(2 - |h - center|) - (2 - |k - center|)| := by
    simpa using abs_min_sub_min_le_max 1 (2 - |h - center|) 1 (2 - |k - center|)
  calc |plateau center h - plateau center k|
      ≤ |min 1 (2 - |h - center|) - min 1 (2 - |k - center|)| := by
        simpa [plateau] using abs_max_sub_max_le_max 0 (min 1 (2 - |h - center|)) 0
          (min 1 (2 - |k - center|))
    _ ≤ |(2 - |h - center|) - (2 - |k - center|)| := hmin
    _ = |(|k - center| - |h - center|)| := by congr 1; ring
    _ ≤ |(k - center) - (h - center)| := abs_abs_sub_abs_le_abs_sub _ _
    _ = |h - k| := by rw [sub_sub_sub_cancel_right, abs_sub_comm]

end Plateau

lemma weight_mem (h : ℚ) (c : Channel) : 0 ≤ weight h c ∧ weight h c ≤ 1 := by
  cases c with
  | red =>
      have := plateau_mem 3 h
      rw [weight, Channel.pick]
      constructor <;> linarith
  | green => exact plateau_mem 2 h
  | blue => exact plateau_mem 4 h

lemma abs_weight_sub_le (h k : ℚ) (c : Channel) : |weight h c - weight k c| ≤ |h - k| := by
  cases c with
  | red =>
      rw [weight, weight, Channel.pick, Channel.pick, sub_sub_sub_cancel_left, abs_sub_comm]
      exact abs_plateau_sub_le 3 h k
  | green => exact abs_plateau_sub_le 2 h k
  | blue => exact abs_plateau_sub_le 4 h k

/-! ### Sextants -/

/-- The channels in a sixth of the wheel: one is full, one is none, and one is in the middle.  Off
the wheel there is none. -/
def sextantChannels (full middle : ℚ) : Nat → Channel → ℚ
  | 0 => Channel.pick full middle 0
  | 1 => Channel.pick middle full 0
  | 2 => Channel.pick 0 full middle
  | 3 => Channel.pick 0 middle full
  | 4 => Channel.pick middle 0 full
  | 5 => Channel.pick full 0 middle
  | _ => Channel.pick 0 0 0

lemma mul_sextantChannels {k : Nat} (hk : k < 6) (c middle : ℚ) (x : Channel) :
    c * sextantChannels 1 middle k x = sextantChannels c (c * middle) k x := by
  interval_cases k <;> cases x <;> simp [sextantChannels, Channel.pick]

section Sextant

variable {k : Nat} {h : ℚ}

/-- The channel that moves rises in the even sixths and falls in the odd ones. -/
lemma middle_eq (h1 : k ≤ h) (h2 : h ≤ k + 1) :
    1 - |h - 2 * (k / 2 : Nat) - 1| = if k % 2 = 0 then h - k else k + 1 - h := by
  have hdivmod : (k : ℚ) = 2 * (k / 2 : Nat) + (k % 2 : Nat) := by
    exact_mod_cast (Nat.div_add_mod k 2).symm
  rcases Nat.mod_two_eq_zero_or_one k with heven | hodd
  · rw [heven, Nat.cast_zero, add_zero] at hdivmod
    rw [if_pos heven, ← hdivmod, abs_of_nonpos (by linarith)]
    ring
  · rw [hodd, Nat.cast_one] at hdivmod
    have hnonneg : 0 ≤ h - 2 * (k / 2 : Nat) - 1 := by linarith
    rw [if_neg (by omega), abs_of_nonneg hnonneg]
    linarith

/-- Within a sixth of the wheel one channel is at the top, one at the bottom, and the third
moves. -/
theorem weight_eq_sextantChannels (hk : k < 6) (h1 : k ≤ h) (h2 : h ≤ k + 1) (c : Channel) :
    weight h c = sextantChannels 1 (if k % 2 = 0 then h - k else k + 1 - h) k c := by
  have bottom (center : ℚ) (hfar : h ≤ center - 2 ∨ center + 2 ≤ h) : plateau center h = 0 := by
    refine plateau_of_far ?_
    rw [le_abs]
    rcases hfar with hfar | hfar
    · exact Or.inr (by linarith)
    · exact Or.inl (by linarith)
  have top (center : ℚ) (hlow : center - 1 ≤ h) (hhigh : h ≤ center + 1) : plateau center h = 1 :=
    plateau_of_near (abs_le.mpr ⟨by linarith, by linarith⟩)
  rw [weight]
  interval_cases k <;> norm_num at h1 h2 <;> norm_num [sextantChannels]
  · rw [bottom 3 (Or.inl (by linarith)), plateau_rising (by linarith) (by linarith),
      bottom 4 (Or.inl (by linarith))]
    norm_num
  · rw [plateau_rising (by linarith) (by linarith), top 2 (by linarith) (by linarith),
      bottom 4 (Or.inl (by linarith))]
    norm_num
    ring_nf
  · rw [top 3 (by linarith) (by linarith), top 2 (by linarith) (by linarith),
      plateau_rising (by linarith) (by linarith)]
    norm_num
  · rw [top 3 (by linarith) (by linarith), plateau_falling (by linarith) (by linarith),
      top 4 (by linarith) (by linarith)]
    norm_num
  · rw [plateau_falling (by linarith) (by linarith), bottom 2 (Or.inr (by linarith)),
      top 4 (by linarith) (by linarith)]
    norm_num
    ring_nf
  · rw [bottom 3 (Or.inr (by linarith)), bottom 2 (Or.inr (by linarith)),
      plateau_falling (by linarith) (by linarith)]
    norm_num

/-- How far the channels stand above the smallest, if the middle one does so by a given part of the
spread. -/
lemma mul_weight_of_part (hk : k < 6) {spread p : ℚ} (hpos : 0 < spread) (h0 : 0 ≤ p)
    (h1 : p ≤ spread)
    (hh : h = if k % 2 = 0 then k + p / spread else k + 1 - p / spread) (x : Channel) :
    spread * weight h x = sextantChannels spread p k x := by
  have hratio0 : 0 ≤ p / spread := div_nonneg h0 hpos.le
  have hratio1 : p / spread ≤ 1 := (div_le_one hpos).mpr h1
  have hmiddle : (if k % 2 = 0 then h - k else k + 1 - h) = p / spread := by
    rw [hh]
    split_ifs <;> ring
  have hlow : k ≤ h := by
    rw [hh]
    split_ifs <;> linarith
  have hhigh : h ≤ k + 1 := by
    rw [hh]
    split_ifs <;> linarith
  rw [weight_eq_sextantChannels hk hlow hhigh, hmiddle, mul_sextantChannels hk,
    mul_div_cancel₀ _ hpos.ne']

end Sextant

/-! ### Channels -/

/-- How far the largest channel stands above the smallest. -/
def chroma (c : ExactHsl) : ℚ := (1 - |2 * c.lightness - 1|) * c.saturation

/-- A channel of a colour, between zero and one. -/
def channel (c : ExactHsl) (x : Channel) : ℚ :=
  c.lightness - c.chroma / 2 + c.chroma * weight c.hue x

/-- The saturation and the lightness lie between zero and one. -/
structure InRange (c : ExactHsl) : Prop where
  saturation : 0 ≤ c.saturation ∧ c.saturation ≤ 1
  lightness : 0 ≤ c.lightness ∧ c.lightness ≤ 1

/-- The largest chroma that a lightness allows. -/
lemma one_sub_abs_mem {l : ℚ} (h : 0 ≤ l ∧ l ≤ 1) :
    0 ≤ 1 - |2 * l - 1| ∧ 1 - |2 * l - 1| ≤ 1 := by
  have habs : |2 * l - 1| ≤ 1 := abs_le.mpr ⟨by linarith, by linarith⟩
  have hnonneg := abs_nonneg (2 * l - 1)
  constructor <;> linarith

lemma InRange.chroma_mem {c : ExactHsl} (h : c.InRange) : 0 ≤ c.chroma ∧ c.chroma ≤ 1 := by
  obtain ⟨h0, h1⟩ := one_sub_abs_mem h.lightness
  exact ⟨mul_nonneg h0 h.saturation.1, mul_le_one₀ h1 h.saturation.1 h.saturation.2⟩

lemma InRange.channel_mem {c : ExactHsl} (h : c.InRange) (x : Channel) :
    0 ≤ c.channel x ∧ c.channel x ≤ 1 := by
  obtain ⟨hw0, hw1⟩ := weight_mem c.hue x
  obtain ⟨hs0, hs1⟩ := h.saturation
  have hroom0 := (one_sub_abs_mem h.lightness).1
  have hchroma : c.chroma ≤ 1 - |2 * c.lightness - 1| := mul_le_of_le_one_right hroom0 hs1
  have hpart0 : 0 ≤ c.chroma * weight c.hue x := mul_nonneg h.chroma_mem.1 hw0
  have hpart1 : c.chroma * weight c.hue x ≤ c.chroma := mul_le_of_le_one_right h.chroma_mem.1 hw1
  have hlow := neg_abs_le (2 * c.lightness - 1)
  have hhigh := le_abs_self (2 * c.lightness - 1)
  rw [channel]
  constructor <;> linarith

lemma abs_chroma_sub_le {c d : ExactHsl} (hc : c.InRange) (hd : d.InRange) :
    |d.chroma - c.chroma|
      ≤ 2 * |d.lightness - c.lightness| + |d.saturation - c.saturation| := by
  obtain ⟨hroom0, hroom1⟩ := one_sub_abs_mem hc.lightness
  have hroom : |(1 - |2 * d.lightness - 1|) - (1 - |2 * c.lightness - 1|)|
      ≤ 2 * |d.lightness - c.lightness| := by
    calc |(1 - |2 * d.lightness - 1|) - (1 - |2 * c.lightness - 1|)|
        = |(|2 * c.lightness - 1| - |2 * d.lightness - 1|)| := by congr 1; ring
      _ ≤ |(2 * c.lightness - 1) - (2 * d.lightness - 1)| := abs_abs_sub_abs_le_abs_sub _ _
      _ = |2 * (d.lightness - c.lightness)| := by rw [← abs_neg]; congr 1; ring
      _ = 2 * |d.lightness - c.lightness| := by rw [abs_mul, abs_two]
  have hsplit : d.chroma - c.chroma
      = ((1 - |2 * d.lightness - 1|) - (1 - |2 * c.lightness - 1|)) * d.saturation
        + (1 - |2 * c.lightness - 1|) * (d.saturation - c.saturation) := by
    rw [chroma, chroma]
    ring
  rw [hsplit]
  refine (abs_add_le _ _).trans (add_le_add ?_ ?_)
  · rw [abs_mul, abs_of_nonneg hd.saturation.1]
    exact (mul_le_of_le_one_right (abs_nonneg _) hd.saturation.2).trans hroom
  · rw [abs_mul, abs_of_nonneg hroom0]
    exact mul_le_of_le_one_left (abs_nonneg _) hroom1

/-- A channel moves by at most twice what the lightness moves by, half of what the saturation
does, and all of what the hue does. -/
theorem abs_channel_sub_le {c d : ExactHsl} (hc : c.InRange) (hd : d.InRange) (x : Channel) :
    |d.channel x - c.channel x|
      ≤ 2 * |d.lightness - c.lightness| + |d.saturation - c.saturation| / 2
        + |d.hue - c.hue| := by
  have hchroma := abs_chroma_sub_le hc hd
  obtain ⟨hw0, hw1⟩ := weight_mem d.hue x
  have hhalf : |weight d.hue x - 1 / 2| ≤ 1 / 2 := abs_le.mpr ⟨by linarith, by linarith⟩
  have hmoved : |(d.chroma - c.chroma) * (weight d.hue x - 1 / 2)|
      ≤ |d.chroma - c.chroma| / 2 := by
    rw [abs_mul, div_eq_mul_one_div |d.chroma - c.chroma|]
    exact mul_le_mul_of_nonneg_left hhalf (abs_nonneg _)
  have hturned : |c.chroma * (weight d.hue x - weight c.hue x)| ≤ |d.hue - c.hue| := by
    obtain ⟨h0, h1⟩ := hc.chroma_mem
    rw [abs_mul, abs_of_nonneg h0]
    exact (mul_le_of_le_one_left (abs_nonneg _) h1).trans (abs_weight_sub_le _ _ x)
  have hsplit : d.channel x - c.channel x = (d.lightness - c.lightness)
      + (d.chroma - c.chroma) * (weight d.hue x - 1 / 2)
      + c.chroma * (weight d.hue x - weight c.hue x) := by
    rw [channel, channel]
    ring
  rw [hsplit]
  calc |(d.lightness - c.lightness) + (d.chroma - c.chroma) * (weight d.hue x - 1 / 2)
        + c.chroma * (weight d.hue x - weight c.hue x)|
      ≤ |d.lightness - c.lightness| + |(d.chroma - c.chroma) * (weight d.hue x - 1 / 2)|
        + |c.chroma * (weight d.hue x - weight c.hue x)| :=
        (abs_add_le _ _).trans (add_le_add_left (abs_add_le _ _) _)
    _ ≤ |d.lightness - c.lightness|
        + (2 * |d.lightness - c.lightness| + |d.saturation - c.saturation|) / 2
        + |d.hue - c.hue| := by
        refine add_le_add (add_le_add_right (hmoved.trans ?_) _) hturned
        exact div_le_div_of_nonneg_right hchroma zero_le_two
    _ = _ := by ring

/-! ### From channels -/

section OfChannels

variable (r g b : ℚ)

/-- The largest of three channels. -/
def largest : ℚ := max (max r g) b

/-- The smallest of three channels. -/
def smallest : ℚ := min (min r g) b

/-- The hue of three channels: the difference of the two that are not the largest, relative to the
spread, off the middle of the two sixths in which the largest is at the top. -/
def hueOfChannels : ℚ :=
  if largest r g b = r then
    (g - b) / (largest r g b - smallest r g b) + if g < b then 6 else 0
  else if largest r g b = g then (b - r) / (largest r g b - smallest r g b) + 2
  else (r - g) / (largest r g b - smallest r g b) + 4

/-- Hue, saturation and lightness of three channels. -/
def ofChannels : ExactHsl where
  hue := hueOfChannels r g b
  saturation := (largest r g b - smallest r g b) / (1 - |largest r g b + smallest r g b - 1|)
  lightness := (largest r g b + smallest r g b) / 2

end OfChannels

section Inverse

variable {r g b : ℚ}

lemma smallest_le_largest (r g b : ℚ) : smallest r g b ≤ largest r g b :=
  (min_le_right _ _).trans (le_max_right _ _)

/-- The chroma of three channels is their spread. -/
lemma chroma_ofChannels (hsmallest : 0 ≤ smallest r g b) (hlargest : largest r g b ≤ 1) :
    (ofChannels r g b).chroma = largest r g b - smallest r g b := by
  have hle := smallest_le_largest r g b
  have htwice : 2 * ((largest r g b + smallest r g b) / 2) = largest r g b + smallest r g b := by
    ring
  rw [chroma, ofChannels, htwice]
  by_cases hroom : 1 - |largest r g b + smallest r g b - 1| = 0
  · -- no chroma is left at the two ends of the lightness
    have hzero : largest r g b - smallest r g b = 0 := by
      rcases abs_choice (largest r g b + smallest r g b - 1) with habs | habs <;>
        (rw [habs] at hroom; linarith)
    rw [hzero, zero_div, mul_zero]
  · exact mul_div_cancel₀ _ hroom

lemma pick_mem (r g b : ℚ) (x : Channel) :
    smallest r g b ≤ Channel.pick r g b x ∧ Channel.pick r g b x ≤ largest r g b := by
  cases x with
  | red => exact ⟨(min_le_left _ _).trans (min_le_left _ _),
      (le_max_left _ _).trans (le_max_left _ _)⟩
  | green => exact ⟨(min_le_left _ _).trans (min_le_right _ _),
      (le_max_right _ _).trans (le_max_left _ _)⟩
  | blue => exact ⟨min_le_right _ _, le_max_right _ _⟩

/-- A grey has the hue zero. -/
lemma hueOfChannels_of_grey (h : largest r g b = smallest r g b) : hueOfChannels r g b = 0 := by
  have hmem (x : Channel) : Channel.pick r g b x = largest r g b :=
    le_antisymm (pick_mem r g b x).2 (h ▸ (pick_mem r g b x).1)
  have hred : r = largest r g b := hmem .red
  have hgreen : g = largest r g b := hmem .green
  have hblue : b = largest r g b := hmem .blue
  have hless : ¬ g < b := by
    rw [hgreen.trans hblue.symm]
    exact lt_irrefl b
  rw [hueOfChannels, if_pos hred.symm, h, sub_self, div_zero, if_neg hless, add_zero]

/-- The difference of two channels is at most the spread. -/
lemma abs_sub_div_spread_le (r g b : ℚ) (x y : Channel) :
    |(Channel.pick r g b x - Channel.pick r g b y) / (largest r g b - smallest r g b)| ≤ 1 := by
  obtain ⟨hx0, hx1⟩ := pick_mem r g b x
  obtain ⟨hy0, hy1⟩ := pick_mem r g b y
  have hspread := sub_nonneg.mpr (smallest_le_largest r g b)
  rw [abs_div, abs_of_nonneg hspread]
  exact div_le_one_of_le₀ (abs_le.mpr ⟨by linarith, by linarith⟩) hspread

/-- The hue of three channels lies on the wheel. -/
lemma hueOfChannels_mem (r g b : ℚ) : 0 ≤ hueOfChannels r g b ∧ hueOfChannels r g b ≤ 6 := by
  have hspread := sub_nonneg.mpr (smallest_le_largest r g b)
  have hunit (x y : Channel) := abs_le.mp (abs_sub_div_spread_le r g b x y)
  rw [hueOfChannels]
  split_ifs with hr hgb hg
  · have hle := div_nonpos_of_nonpos_of_nonneg (sub_nonpos.mpr hgb.le) hspread
    have hge : -1 ≤ (g - b) / _ := (hunit .green .blue).1
    constructor <;> linarith
  · have hge := div_nonneg (sub_nonneg.mpr (not_lt.mp hgb)) hspread
    have hle : (g - b) / _ ≤ 1 := (hunit .green .blue).2
    constructor <;> linarith
  · obtain ⟨hge, hle⟩ : -1 ≤ (b - r) / _ ∧ (b - r) / _ ≤ 1 := hunit .blue .red
    constructor <;> linarith
  · obtain ⟨hge, hle⟩ : -1 ≤ (r - g) / _ ∧ (r - g) / _ ≤ 1 := hunit .red .green
    constructor <;> linarith

/-- In the last sixth of the wheel red is the largest channel and green the smallest. -/
lemma hueOfChannels_of_last (hgb : g < b) (hbr : b ≤ r) :
    hueOfChannels r g b = 6 - (b - g) / (r - g) := by
  have hgr := hgb.le.trans hbr
  have hlargest : largest r g b = r := by rw [largest, max_eq_left hgr, max_eq_left hbr]
  have hsmallest : smallest r g b = g := by rw [smallest, min_eq_right hgr, min_eq_left hgb.le]
  rw [hueOfChannels, if_pos hlargest, if_pos hgb, hlargest, hsmallest, ← neg_sub b g, neg_div]
  ring

lemma hueOfChannels_le_five (h : ¬ (g < b ∧ b ≤ r)) : hueOfChannels r g b ≤ 5 := by
  have hunit (x y : Channel) := (abs_le.mp (abs_sub_div_spread_le r g b x y)).2
  rw [hueOfChannels]
  split_ifs with hr hgb hg
  · exact absurd ⟨hgb, hr ▸ (pick_mem r g b .blue).2⟩ h
  · have hle : (g - b) / _ ≤ 1 := hunit .green .blue
    linarith
  · have hle : (b - r) / _ ≤ 1 := hunit .blue .red
    linarith
  · have hle : (r - g) / _ ≤ 1 := hunit .red .green
    linarith

/-- The weights at the hue of three channels say how far they stand above the smallest. -/
lemma spread_mul_weight (r g b : ℚ) (x : Channel) :
    (largest r g b - smallest r g b) * weight (hueOfChannels r g b) x
      = Channel.pick r g b x - smallest r g b := by
  have hred : r ≤ largest r g b := (pick_mem r g b .red).2
  have hgreen : g ≤ largest r g b := (pick_mem r g b .green).2
  have hblue : b ≤ largest r g b := (pick_mem r g b .blue).2
  rw [hueOfChannels]
  set spread := largest r g b - smallest r g b with hspread
  rcases (sub_nonneg.mpr (smallest_le_largest r g b)).eq_or_lt with hzero | hpos
  · obtain ⟨hlow, hhigh⟩ := pick_mem r g b x
    rw [← hspread] at hzero
    rw [← hzero, zero_mul]
    linarith
  · rw [← hspread] at hpos
    split_ifs with hr hgb hg
    · have hsmall : smallest r g b = g := by
        rw [smallest, min_eq_right (a := r) (by linarith), min_eq_left hgb.le]
      rw [mul_weight_of_part (k := 5) (p := b - g) (by norm_num) hpos (by linarith)
        (by linarith) (by norm_num; ring)]
      cases x <;> simp only [sextantChannels, Channel.pick] <;> linarith
    · rw [not_lt] at hgb
      have hsmall : smallest r g b = b := min_eq_right (le_min (by linarith) hgb)
      rw [mul_weight_of_part (k := 0) (p := g - b) (by norm_num) hpos (by linarith)
        (by linarith) (by norm_num)]
      cases x <;> simp only [sextantChannels, Channel.pick] <;> linarith
    · rcases le_total b r with hbr | hrb
      · have hsmall : smallest r g b = b := min_eq_right (le_min hbr (by linarith))
        rw [mul_weight_of_part (k := 1) (p := r - b) (by norm_num) hpos (by linarith)
          (by linarith) (by norm_num; ring)]
        cases x <;> simp only [sextantChannels, Channel.pick] <;> linarith
      · have hsmall : smallest r g b = r := by
          rw [smallest, min_eq_left (b := g) (by linarith), min_eq_left hrb]
        rw [mul_weight_of_part (k := 2) (p := b - r) (by norm_num) hpos (by linarith)
          (by linarith) (by norm_num; ring)]
        cases x <;> simp only [sextantChannels, Channel.pick] <;> linarith
    · have hb : largest r g b = b := by
        rw [largest] at hr hg ⊢
        grind
      rcases le_total r g with hrg | hgr
      · have hsmall : smallest r g b = r := by
          rw [smallest, min_eq_left hrg, min_eq_left (by linarith)]
        rw [mul_weight_of_part (k := 3) (p := g - r) (by norm_num) hpos (by linarith)
          (by linarith) (by norm_num; ring)]
        cases x <;> simp only [sextantChannels, Channel.pick] <;> linarith
      · have hsmall : smallest r g b = g := by
          rw [smallest, min_eq_right hgr, min_eq_left (by linarith)]
        rw [mul_weight_of_part (k := 4) (p := r - g) (by norm_num) hpos (by linarith)
          (by linarith) (by norm_num; ring)]
        cases x <;> simp only [sextantChannels, Channel.pick] <;> linarith

lemma inRange_ofChannels (hsmallest : 0 ≤ smallest r g b) (hlargest : largest r g b ≤ 1) :
    (ofChannels r g b).InRange := by
  have hle := smallest_le_largest r g b
  have hroom : largest r g b - smallest r g b ≤ 1 - |largest r g b + smallest r g b - 1| := by
    rw [le_sub_comm, abs_le]
    constructor <;> linarith
  refine ⟨⟨?_, ?_⟩, ?_⟩
  · exact div_nonneg (by linarith) (by linarith)
  · exact div_le_one_of_le₀ hroom (by linarith)
  · rw [ofChannels]
    constructor <;> linarith

/-- The channels of the hue, the saturation and the lightness of three channels are these. -/
theorem channel_ofChannels (hsmallest : 0 ≤ smallest r g b) (hlargest : largest r g b ≤ 1)
    (x : Channel) : (ofChannels r g b).channel x = Channel.pick r g b x := by
  rw [channel, chroma_ofChannels hsmallest hlargest]
  have hweight := spread_mul_weight r g b x
  have hbase : (ofChannels r g b).lightness - (largest r g b - smallest r g b) / 2
      = smallest r g b := by
    rw [ofChannels]
    ring
  rw [hbase]
  exact (congrArg _ hweight).trans (add_sub_cancel _ _)

end Inverse

end ExactHsl

end Swatch
