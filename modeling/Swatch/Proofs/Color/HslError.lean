import Swatch.Proofs.Binary64.Error
import Swatch.Proofs.Color.Hsl
import Swatch.Proofs.Color.Wheel
import Swatch.Proofs.Literal.Samples
/-!
How near the hue, the saturation and the lightness of byte channels are to exact ones.

The channels are parts of 255, and two that differ do so by a 255th at least: that is far more than
what their rounding moves them by, so they compare as the bytes do, and every division has a divisor
that is not small.

* `Binary64.part_lt_iff`: the rounded parts compare as the bytes do.
* `hueSixths_near`, `saturation_near`: the hue and the saturation are near the exact ones.
* `Hsl.ofSample_near`: so are all three of a colour of byte channels.
-/

namespace Swatch

open Binary64

/-! ### Bytes as parts of 255 -/

namespace Binary64

/-- The largest of two numbers is as near as they are. -/
lemma Near.max {k : Nat} {p q : ℚ} {x y : Binary64} (hx : Near k p x) (hy : Near k q y) :
    Near k (Max.max p q) (x.max y) := by
  refine ⟨isFinite_max hx.isFinite hy.isFinite, ?_⟩
  rw [value_max hx.isFinite hy.isFinite]
  exact (abs_max_sub_max_le_max _ _ _ _).trans (max_le hx.abs_sub_le hy.abs_sub_le)

/-- The smaller of two numbers is as near as they are. -/
lemma Near.min {k : Nat} {p q : ℚ} {x y : Binary64} (hx : Near k p x) (hy : Near k q y) :
    Near k (Min.min p q) (x.min y) := by
  refine ⟨isFinite_min hx.isFinite hy.isFinite, ?_⟩
  rw [value_min hx.isFinite hy.isFinite]
  exact (abs_min_sub_min_le_max _ _ _ _).trans (max_le hx.abs_sub_le hy.abs_sub_le)

/-- A byte as a part of 255. -/
def part (n : ℤ) : Binary64 := ofInt n / 255

variable {m n : ℤ}

/-- A byte as a part of 255 is rounded once. -/
lemma part_near (hn : 0 ≤ n ∧ n ≤ 255) : Near 1 (n / 255) (part n) := by
  obtain ⟨hfinite, hvalue⟩ := value_ofInt (n := n) (by omega)
  have hn512 : |(n : ℚ)| ≤ 512 := by
    rw [abs_of_nonneg (by exact_mod_cast hn.1)]
    exact_mod_cast (by omega : n ≤ 512)
  exact (near_of_value hfinite hvalue).div_ofNat (n := 255) (by norm_num) (by norm_num)
    (by norm_num) hn512

/-- Two bytes are further apart than rounding moves them. -/
lemma part_value_lt (hm : 0 ≤ m ∧ m ≤ 255) (hn : 0 ≤ n ∧ n ≤ 255) (h : m < n) :
    (part m).value < (part n).value := by
  have hmnear := abs_le.mp (part_near hm).abs_sub_le
  have hnnear := abs_le.mp (part_near hn).abs_sub_le
  have hstep : (m : ℚ) + 1 ≤ n := by exact_mod_cast h
  have hsmall : roundoff * 1024 ≤ 1 := by norm_num [roundoff]
  push_cast at hmnear hnnear
  linarith

/-- Parts compare as the bytes do. -/
lemma part_value_le_iff (hm : 0 ≤ m ∧ m ≤ 255) (hn : 0 ≤ n ∧ n ≤ 255) :
    (part m).value ≤ (part n).value ↔ (m : ℚ) / 255 ≤ n / 255 := by
  rw [div_le_div_iff_of_pos_right (by norm_num), Int.cast_le]
  constructor
  · intro h
    by_contra hlt
    exact absurd h (not_le.mpr (part_value_lt hn hm (not_le.mp hlt)))
  · intro h
    rcases h.eq_or_lt with rfl | hlt
    · exact le_rfl
    · exact (part_value_lt hm hn hlt).le

/-- Bytes are compared alike before and after they are divided by 255. -/
lemma part_lt_iff (hm : 0 ≤ m ∧ m ≤ 255) (hn : 0 ≤ n ∧ n ≤ 255) :
    part m < part n ↔ (m : ℚ) / 255 < n / 255 := by
  rw [lt_iff (part_near hm).isFinite (part_near hn).isFinite, ← not_le, ← not_le,
    part_value_le_iff hn hm]

end Binary64

/-! ### Three bytes -/

namespace ExactHsl

variable {r g b : ℚ}

lemma largest_eq_red_iff : largest r g b = r ↔ g ≤ r ∧ b ≤ r := by
  rw [largest, max_assoc, max_eq_left_iff, max_le_iff]

lemma largest_eq_green_iff : largest r g b = g ↔ r ≤ g ∧ b ≤ g := by
  rw [largest, max_comm r g, max_assoc, max_eq_left_iff, max_le_iff]

lemma largest_eq_smallest_iff :
    largest r g b = smallest r g b ↔ (r ≤ g ∧ g ≤ r) ∧ g ≤ b ∧ b ≤ g := by
  rw [largest, smallest]
  grind

end ExactHsl

/-- The channels of a colour as bytes. -/
structure Bytes where
  red : ℤ
  green : ℤ
  blue : ℤ
  red_mem : 0 ≤ red ∧ red ≤ 255
  green_mem : 0 ≤ green ∧ green ≤ 255
  blue_mem : 0 ≤ blue ∧ blue ≤ 255

namespace Bytes

/-- The colour of the bytes. -/
def sample (c : Bytes) (alpha : Option Binary64) : Sample :=
  ⟨ofInt c.red, ofInt c.green, ofInt c.blue, alpha⟩

/-- The alpha by itself: where two colours are compared as a whole, their channels are computed. -/
lemma alpha_sample (c : Bytes) (alpha : Option Binary64) : (c.sample alpha).alpha = alpha := rfl

/-- The exact hue, saturation and lightness of the bytes. -/
def hsl (c : Bytes) : ExactHsl :=
  ExactHsl.ofChannels (c.red / 255) (c.green / 255) (c.blue / 255)

/-- The largest channel as an exact part of 255. -/
def top (c : Bytes) : ℚ := ExactHsl.largest (c.red / 255) (c.green / 255) (c.blue / 255)

/-- The largest channel as it is computed, from rounded parts. -/
def largest (c : Bytes) : Binary64 := ((part c.red).max (part c.green)).max (part c.blue)

/-- The smallest channel as an exact part of 255. -/
def bottom (c : Bytes) : ℚ := ExactHsl.smallest (c.red / 255) (c.green / 255) (c.blue / 255)

/-- The smallest channel as it is computed, from rounded parts. -/
def smallest (c : Bytes) : Binary64 := ((part c.red).min (part c.green)).min (part c.blue)

variable (c : Bytes)

/-- The largest channel is off by no more than one rounding. -/
lemma largest_near : Near 1 c.top c.largest :=
  ((part_near c.red_mem).max (part_near c.green_mem)).max (part_near c.blue_mem)

lemma smallest_near : Near 1 c.bottom c.smallest :=
  ((part_near c.red_mem).min (part_near c.green_mem)).min (part_near c.blue_mem)

/-- The largest part of 255 is that of the largest byte. -/
lemma top_eq : c.top = (max (max c.red c.green) c.blue : ℤ) / 255 := by
  rw [top, ExactHsl.largest, max_div_div_right (by norm_num), max_div_div_right (by norm_num)]
  push_cast
  rfl

/-- The smallest part of 255 is that of the smallest byte. -/
lemma bottom_eq : c.bottom = (min (min c.red c.green) c.blue : ℤ) / 255 := by
  rw [bottom, ExactHsl.smallest, min_div_div_right (by norm_num), min_div_div_right (by norm_num)]
  push_cast
  rfl

lemma bottom_le_top : c.bottom ≤ c.top := ExactHsl.smallest_le_largest _ _ _

lemma bottom_nonneg : 0 ≤ c.bottom := by
  have hmem : 0 ≤ min (min c.red c.green) c.blue :=
    le_min (le_min c.red_mem.1 c.green_mem.1) c.blue_mem.1
  have hcast : (0 : ℚ) ≤ (min (min c.red c.green) c.blue : ℤ) := by exact_mod_cast hmem
  rw [bottom_eq]
  positivity

lemma top_le_one : c.top ≤ 1 := by
  have hmem : max (max c.red c.green) c.blue ≤ 255 :=
    max_le (max_le c.red_mem.2 c.green_mem.2) c.blue_mem.2
  rw [top_eq, div_le_one (by norm_num)]
  exact_mod_cast hmem

/-- Channels that differ do so by a part of 255 at least. -/
lemma one_le_spread (h : c.bottom < c.top) : 1 / 255 ≤ c.top - c.bottom := by
  rw [top_eq, bottom_eq, div_lt_div_iff_of_pos_right (by norm_num), Int.cast_lt] at h
  have hstep : ((min (min c.red c.green) c.blue : ℤ) : ℚ) + 1
      ≤ (max (max c.red c.green) c.blue : ℤ) := by exact_mod_cast h
  rw [top_eq, bottom_eq]
  linarith

/-- The largest of the rounded parts, by their values. -/
lemma value_largest : c.largest.value
    = ExactHsl.largest (part c.red).value (part c.green).value (part c.blue).value :=
  value_largest_eq (part_near c.red_mem).isFinite (part_near c.green_mem).isFinite
    (part_near c.blue_mem).isFinite

lemma value_smallest : c.smallest.value
    = ExactHsl.smallest (part c.red).value (part c.green).value (part c.blue).value :=
  value_smallest_eq (part_near c.red_mem).isFinite (part_near c.green_mem).isFinite
    (part_near c.blue_mem).isFinite

/-- Red is found to be largest just if it is, so the sextant of the hue is the exact one. -/
lemma largest_beq_red_iff : (c.largest == part c.red) = true ↔ c.top = c.red / 255 := by
  rw [beq_iff c.largest_near.isFinite (part_near c.red_mem).isFinite, value_largest, top,
    ExactHsl.largest_eq_red_iff, ExactHsl.largest_eq_red_iff,
    part_value_le_iff c.green_mem c.red_mem, part_value_le_iff c.blue_mem c.red_mem]

lemma largest_beq_green_iff : (c.largest == part c.green) = true ↔ c.top = c.green / 255 := by
  rw [beq_iff c.largest_near.isFinite (part_near c.green_mem).isFinite, value_largest, top,
    ExactHsl.largest_eq_green_iff, ExactHsl.largest_eq_green_iff,
    part_value_le_iff c.red_mem c.green_mem, part_value_le_iff c.blue_mem c.green_mem]

/-- A colour is found to be grey just if it is. -/
lemma largest_beq_smallest_iff : (c.largest == c.smallest) = true ↔ c.top = c.bottom := by
  rw [beq_iff c.largest_near.isFinite c.smallest_near.isFinite, value_largest, value_smallest,
    top, bottom, ExactHsl.largest_eq_smallest_iff, ExactHsl.largest_eq_smallest_iff,
    part_value_le_iff c.red_mem c.green_mem, part_value_le_iff c.green_mem c.red_mem,
    part_value_le_iff c.green_mem c.blue_mem, part_value_le_iff c.blue_mem c.green_mem]

/-! ### Near the exact ones -/

/-- The difference of two rounded parts, rounded once more. -/
lemma spread_near : Near 3 (c.top - c.bottom) (c.largest - c.smallest) := by
  have hle := c.bottom_le_top
  have h0 := c.bottom_nonneg
  have h1 := c.top_le_one
  exact c.largest_near.sub c.smallest_near (by norm_num) (abs_le.mpr ⟨by linarith, by linarith⟩)

lemma sum_near : Near 3 (c.top + c.bottom) (c.largest + c.smallest) := by
  have hle := c.bottom_le_top
  have h0 := c.bottom_nonneg
  have h1 := c.top_le_one
  exact c.largest_near.add c.smallest_near (by norm_num) (abs_le.mpr ⟨by linarith, by linarith⟩)

end Bytes

/-- A quotient by something near a number that is not small. -/
lemma Binary64.Near.quotient {a b : Nat} {p q : ℚ} {x y : Binary64} (hx : Near a p x)
    (hy : Near b q y) (hpq : |p| ≤ q) (hq : 1 / 255 ≤ q) (hab : a + b ≤ 7) :
    ∃ z, x.quotient y = .ok z ∧ Near 2000 (p / q) z := by
  have hsmall : roundoff * 2 ^ 20 ≤ 1 := by norm_num [roundoff]
  have hbq : (b : ℚ) ≤ 7 := by exact_mod_cast (by omega : b ≤ 7)
  have herror : (b : ℚ) * roundoff ≤ 7 * roundoff :=
    mul_le_mul_of_nonneg_right hbq roundoff_pos.le
  have hlow := (abs_le.mp hy.abs_sub_le).1
  have hvalue : 1 ≤ ((256 : Nat) : ℚ) * y.value := by
    push_cast
    linarith
  have hne : y.value ≠ 0 := by
    intro hzero
    rw [hzero, mul_zero] at hvalue
    exact absurd hvalue (by norm_num)
  refine ⟨x / y, quotient_eq hy.isFinite hne, ?_⟩
  exact (hx.div hy hpq hvalue (by omega)).mono (by omega)

/-- A number between zero and one, in hundredths or in degrees, is not far from the exact one. -/
lemma Binary64.Near.scaled {k : Nat} {p : ℚ} {x : Binary64} (hx : Near k p x) (hk : k ≤ 2400)
    (hp : |p| ≤ 1) {n : Nat} (hn : n ≤ 360) :
    Near (2 ^ (20 : Nat)) (p * n) (x * OfNat.ofNat n) := by
  have hkn : k * n ≤ 2400 * 360 := Nat.mul_le_mul hk hn
  refine (hx.mul (k := 1) (l := n) (near_ofNat (by omega)) (by simpa using hp) ?_ (by omega)
    (by norm_num) (by omega) (by omega)).mono (by omega)
  rw [Nat.abs_cast]

namespace Bytes

variable (c : Bytes)

/-- The difference of two channels, relative to the spread. -/
lemma quotient_near (h : c.bottom < c.top) {m n : ℤ} (hm : 0 ≤ m ∧ m ≤ 255)
    (hn : 0 ≤ n ∧ n ≤ 255) (hmtop : c.bottom ≤ m / 255 ∧ (m : ℚ) / 255 ≤ c.top)
    (hntop : c.bottom ≤ n / 255 ∧ (n : ℚ) / 255 ≤ c.top) :
    ∃ z, (part m - part n).quotient (c.largest - c.smallest) = .ok z ∧
      Near 2000 (((m : ℚ) / 255 - n / 255) / (c.top - c.bottom)) z := by
  have h0 := c.bottom_nonneg
  have h1 := c.top_le_one
  have hdifference : |(m : ℚ) / 255 - n / 255| ≤ c.top - c.bottom :=
    abs_le.mpr ⟨by linarith, by linarith⟩
  have hnear := (part_near hm).sub (part_near hn) (by norm_num) (by linarith)
  exact hnear.quotient c.spread_near hdifference (c.one_le_spread h) (by norm_num)

/-- A difference relative to the spread is at most one. -/
lemma abs_quotient_le {p : ℚ} (hp : |p| ≤ c.top - c.bottom) : |p / (c.top - c.bottom)| ≤ 1 := by
  rw [abs_div, abs_of_nonneg (sub_nonneg.mpr c.bottom_le_top)]
  exact div_le_one_of_le₀ hp (sub_nonneg.mpr c.bottom_le_top)

/-- The hue in sixths of a turn: its sextant is the exact one, and in it a quotient is rounded. -/
lemma hueSixths_near (h : c.bottom < c.top) :
    ∃ x, hueSixths (part c.red) (part c.green) (part c.blue) c.largest (c.largest - c.smallest)
      = .ok x ∧ Near 2001 c.hsl.hue x := by
  have hmem (x : Channel) := ExactHsl.pick_mem (c.red / 255 : ℚ) (c.green / 255) (c.blue / 255) x
  have hbound {p q : ℚ} (hp : c.bottom ≤ p ∧ p ≤ c.top) (hq : c.bottom ≤ q ∧ q ≤ c.top) :
      |(p - q) / (c.top - c.bottom)| ≤ 1 :=
    c.abs_quotient_le (abs_le.mpr ⟨by linarith [hp.1, hq.2], by linarith [hp.2, hq.1]⟩)
  -- a whole number of sixths is added without another error than that of rounding
  have hturn {p : ℚ} {z : Binary64} (hz : Near 2000 p z) (hp : |p| ≤ 1) (n : Nat) (hn : n ≤ 6) :
      Near 2001 (p + n) (z + OfNat.ofNat n) := by
    have hnq : (n : ℚ) ≤ 6 := by exact_mod_cast hn
    obtain ⟨hlow, hhigh⟩ := abs_le.mp hp
    refine hz.add (near_ofNat (by omega)) (by norm_num) (abs_le.mpr ⟨?_, by linarith⟩)
    have := Nat.cast_nonneg (α := ℚ) n
    linarith
  have hhue : c.hsl.hue = if c.top = c.red / 255 then
      ((c.green : ℚ) / 255 - c.blue / 255) / (c.top - c.bottom)
        + (if (c.green : ℚ) / 255 < c.blue / 255 then 6 else 0)
    else if c.top = c.green / 255 then
      ((c.blue : ℚ) / 255 - c.red / 255) / (c.top - c.bottom) + 2
    else ((c.red : ℚ) / 255 - c.green / 255) / (c.top - c.bottom) + 4 := rfl
  rw [hueSixths, hhue]
  simp only [largest_beq_red_iff, largest_beq_green_iff, part_lt_iff c.green_mem c.blue_mem]
  split_ifs with hred hless hgreen
  · obtain ⟨z, hz, hnear⟩ := c.quotient_near h c.green_mem c.blue_mem (hmem .green) (hmem .blue)
    rw [hz]
    exact ⟨_, rfl, hturn hnear (hbound (hmem .green) (hmem .blue)) 6 le_rfl⟩
  · obtain ⟨z, hz, hnear⟩ := c.quotient_near h c.green_mem c.blue_mem (hmem .green) (hmem .blue)
    rw [hz]
    exact ⟨_, rfl,
      by exact_mod_cast hturn hnear (hbound (hmem .green) (hmem .blue)) 0 (by norm_num)⟩
  · obtain ⟨z, hz, hnear⟩ := c.quotient_near h c.blue_mem c.red_mem (hmem .blue) (hmem .red)
    rw [hz]
    exact ⟨_, rfl, hturn hnear (hbound (hmem .blue) (hmem .red)) 2 (by norm_num)⟩
  · obtain ⟨z, hz, hnear⟩ := c.quotient_near h c.red_mem c.green_mem (hmem .red) (hmem .green)
    rw [hz]
    exact ⟨_, rfl, hturn hnear (hbound (hmem .red) (hmem .green)) 4 (by norm_num)⟩

/-- Halving the sum costs one rounding. -/
lemma lightness_near : Near 4 c.hsl.lightness ((c.largest + c.smallest) / 2) := by
  have h0 := c.bottom_nonneg
  have h1 := c.top_le_one
  have hle := c.bottom_le_top
  exact c.sum_near.div_ofNat (n := 2) (by norm_num) (by norm_num) (by norm_num)
    (abs_le.mpr ⟨by linarith, by linarith⟩)

/-- The sum of the largest and the smallest channel is a number of parts of 255. -/
lemma exists_sum_eq : ∃ n : ℤ, c.top + c.bottom = n / 255 :=
  ⟨max (max c.red c.green) c.blue + min (min c.red c.green) c.blue, by
    rw [top_eq, bottom_eq]
    push_cast
    ring⟩

/-- A colour counts as light or as dark as it is, except halfway, where it counts as either. -/
lemma one_le_sum_of_light (h : 0.5 < (c.largest + c.smallest) / 2) : 1 ≤ c.top + c.bottom := by
  have hnear := c.lightness_near
  rw [lt_iff value_half.1 hnear.isFinite, value_half.2] at h
  obtain ⟨n, hn⟩ := c.exists_sum_eq
  have hlight : c.hsl.lightness = (c.top + c.bottom) / 2 := rfl
  have hupper := (abs_le.mp hnear.abs_sub_le).2
  have hsmall : roundoff * 2 ^ 20 ≤ 1 := by norm_num [roundoff]
  rw [hlight, hn] at hupper
  have hlt : (254 : ℚ) < n := by
    push_cast at hupper
    linarith
  have hle : (255 : ℚ) ≤ n := by exact_mod_cast (by exact_mod_cast hlt : (254 : ℤ) < n)
  rw [hn]
  linarith

/-- The other half of the choice: what does not count as light has a sum of at most one. -/
lemma sum_le_one_of_not_light (h : ¬ 0.5 < (c.largest + c.smallest) / 2) :
    c.top + c.bottom ≤ 1 := by
  have hnear := c.lightness_near
  rw [lt_iff value_half.1 hnear.isFinite, value_half.2, not_lt] at h
  obtain ⟨n, hn⟩ := c.exists_sum_eq
  have hlight : c.hsl.lightness = (c.top + c.bottom) / 2 := rfl
  have hlower := (abs_le.mp hnear.abs_sub_le).1
  have hsmall : roundoff * 2 ^ 20 ≤ 1 := by norm_num [roundoff]
  rw [hlight, hn] at hlower
  have hlt : (n : ℚ) < 256 := by
    push_cast at hlower
    linarith
  have hle : (n : ℚ) ≤ 255 := by
    exact_mod_cast Int.lt_add_one_iff.mp (by exact_mod_cast hlt : n < 255 + 1)
  rw [hn]
  linarith

/-- The saturation is the exact one up to rounding, whichever divisor is chosen: at the halfway
point, where rounding may choose the other one, both are the same. -/
lemma saturation_near (h : c.bottom < c.top) :
    ∃ x, (if 0.5 < (c.largest + c.smallest) / 2
        then (c.largest - c.smallest).quotient (2 - c.largest - c.smallest)
        else (c.largest - c.smallest).quotient (c.largest + c.smallest)) = .ok x ∧
      Near 2000 c.hsl.saturation x := by
  have h0 := c.bottom_nonneg
  have h1 := c.top_le_one
  have hle := c.bottom_le_top
  have hspread := c.one_le_spread h
  have habs : |c.top - c.bottom| = c.top - c.bottom := abs_of_nonneg (by linarith)
  have hsaturation : c.hsl.saturation
      = (c.top - c.bottom) / (1 - |c.top + c.bottom - 1|) := rfl
  rw [hsaturation]
  split_ifs with hlight
  · have hroom : 1 - |c.top + c.bottom - 1| = 2 - c.top - c.bottom := by
      rw [abs_of_nonneg (sub_nonneg.mpr (c.one_le_sum_of_light hlight))]
      ring
    have hrest : Near 2 (2 - c.top) (2 - c.largest) := by
      refine (near_ofNat (n := 2) (by norm_num)).sub c.largest_near (by norm_num) ?_
      exact abs_le.mpr ⟨by push_cast; linarith, by push_cast; linarith⟩
    have hdivisor : Near 4 (2 - c.top - c.bottom) (2 - c.largest - c.smallest) :=
      hrest.sub c.smallest_near (by norm_num) (abs_le.mpr ⟨by linarith, by linarith⟩)
    rw [hroom]
    exact c.spread_near.quotient hdivisor (by linarith) (by linarith) (by norm_num)
  · have hroom : 1 - |c.top + c.bottom - 1| = c.top + c.bottom := by
      rw [abs_of_nonpos (sub_nonpos.mpr (c.sum_le_one_of_not_light hlight))]
      ring
    rw [hroom]
    exact c.spread_near.quotient c.sum_near (by linarith) (by linarith) (by norm_num)

lemma hue_mem : 0 ≤ c.hsl.hue ∧ c.hsl.hue ≤ 6 := ExactHsl.hueOfChannels_mem _ _ _

/-- The exact numbers lie in the ranges of their kind. -/
lemma inRange_hsl : c.hsl.InRange := ExactHsl.inRange_ofChannels c.bottom_nonneg c.top_le_one

/-- The exact channels of a colour are its bytes. -/
lemma channel_hsl (x : Channel) :
    c.hsl.channel x = Channel.pick ((c.red : ℚ) / 255) (c.green / 255) (c.blue / 255) x :=
  ExactHsl.channel_ofChannels c.bottom_nonneg c.top_le_one x

/-- The hue, the saturation and the lightness of byte channels are near the exact ones. -/
theorem ofSample_near (alpha : Option Binary64) : ∃ x, Hsl.ofSample (c.sample alpha) = .ok x ∧
    Near (2 ^ (20 : Nat)) (c.hsl.hue / 6 * 360) x.hue ∧
    Near (2 ^ (20 : Nat)) (c.hsl.saturation * 100) x.saturation ∧
    Near (2 ^ (20 : Nat)) (c.hsl.lightness * 100) x.lightness := by
  have habs {p : ℚ} (hp : 0 ≤ p ∧ p ≤ 1) : |p| ≤ 1 := abs_le.mpr ⟨by linarith [hp.1], hp.2⟩
  have hlightness := c.lightness_near.scaled (by norm_num) (habs c.inRange_hsl.lightness)
    (n := 100) (by norm_num)
  by_cases hgrey : c.top = c.bottom
  · -- a grey has no spread, so its exact hue and saturation are zero too
    have hhue : c.hsl.hue = 0 := ExactHsl.hueOfChannels_of_grey hgrey
    have hsaturation : c.hsl.saturation = 0 := by
      change (c.top - c.bottom) / _ = 0
      rw [hgrey, sub_self, zero_div]
    have hok : Hsl.ofSample (c.sample alpha)
        = .ok ⟨0 * 360, 0 * 100, (c.largest + c.smallest) / 2 * 100⟩ :=
      Hsl.ofSample_of_grey (c.largest_beq_smallest_iff.mpr hgrey)
    rw [hok, hhue, hsaturation]
    refine ⟨_, rfl, ?_, ?_, hlightness⟩
    · simpa using near_zero.scaled (n := 360) (by norm_num) (by norm_num) (by norm_num)
    · simpa using near_zero.scaled (n := 100) (by norm_num) (by norm_num) (by norm_num)
  · have hlt : c.bottom < c.top := lt_of_le_of_ne c.bottom_le_top (Ne.symm hgrey)
    obtain ⟨saturation, hsaturation, hsnear⟩ := c.saturation_near hlt
    obtain ⟨hue, hhue, hhnear⟩ := c.hueSixths_near hlt
    obtain ⟨hhue0, hhue6⟩ := c.hue_mem
    have hok : Hsl.ofSample (c.sample alpha)
        = .ok ⟨hue / 6 * 360, saturation * 100, (c.largest + c.smallest) / 2 * 100⟩ :=
      Hsl.ofSample_of_steps (mt c.largest_beq_smallest_iff.mp hgrey) hsaturation hhue
    refine ⟨_, hok, ?_, ?_, hlightness⟩
    · have hsixth : Near 2002 (c.hsl.hue / 6) (hue / 6) :=
        hhnear.div_ofNat (n := 6) (by norm_num) (by norm_num) (by norm_num)
          (abs_le.mpr ⟨by linarith, by linarith⟩)
      exact hsixth.scaled (n := 360) (by norm_num) (habs ⟨by linarith, by linarith⟩) (by norm_num)
    · exact hsnear.scaled (n := 100) (by norm_num) (habs c.inRange_hsl.saturation) (by norm_num)

end Bytes

end Swatch
