import Swatch.Binary64.Elementary
import Swatch.Proofs.Binary64.Direction
import Swatch.Proofs.Binary64.Powers
import Swatch.Proofs.Binary64.Roots
/-!
What the colours need of the elementary functions.

No two libraries agree on the last bit of a cosine or of a power, so what is proved of a colour is
proved of every choice of the functions that keeps to a bound.  The bound is far above what a
library gives away, and far below what a colour shows.

* `Binary64.Approximates`: a finite number within the bound of a real one.
* `Elementary.IsAccurate`: each of the functions approximates the real one, where the colours use
  it.
* `Elementary.isAccurate_computed`: the functions of this library are accurate.
-/

namespace Swatch

/-- A finite number that is near a real one. -/
structure Binary64.Approximates (x : Binary64) (v : ℝ) : Prop where
  isFinite : x.isFinite = true
  abs_sub_le : |(x.value : ℝ) - v| ≤ 1 / 2 ^ 38

open Binary64

/-- A choice of elementary functions is accurate: each approximates the real function, where the
colours use it.  Besides, the cube root of a number that is not negative is not negative, that of
zero is zero, and the power of a number of at most one is at most one. -/
class Elementary.IsAccurate [Elementary] : Prop where
  cbrt {x : Binary64} (hx : Between 0 2 x) :
    (Elementary.cbrt x).Approximates ((x.value : ℝ) ^ (3 : ℝ)⁻¹)
  value_cbrt_nonneg {x : Binary64} (hx : Between 0 2 x) : 0 ≤ (Elementary.cbrt x).value
  cbrt_zero : Elementary.cbrt (zero false) = zero false
  cos {x : Binary64} (hx : x.isFinite = true) :
    (Elementary.cos x).Approximates (Real.cos x.value)
  sin {x : Binary64} (hx : x.isFinite = true) :
    (Elementary.sin x).Approximates (Real.sin x.value)
  atan2 {x y : Binary64} (hx : x.isFinite = true) (hy : y.isFinite = true) :
    ∃ φ : ℝ, |φ| ≤ Real.pi ∧ IsDirection x.value y.value φ ∧ (Elementary.atan2 y x).Approximates φ
  pow {x y : Binary64} (hx : Between (1 / 1024) 1 x) (hy : 0 < y.value) :
    (Elementary.pow x y).Approximates ((x.value : ℝ) ^ (y.value : ℝ))
  between_pow {x y : Binary64} (hx : Between (1 / 1024) 1 x) (hy : 0 < y.value) :
    Between 0 1 (Elementary.pow x y)

/-- The functions by series and roots in fixed point are accurate. -/
instance Elementary.isAccurate_computed : @Elementary.IsAccurate Elementary.computed where
  cbrt {x} hx := by
    obtain ⟨root, hnonneg, hcube, hfinite, hnear⟩ := exists_cbrt hx
    have hroot : (x.value : ℝ) ^ (3 : ℝ)⁻¹ = root := by
      rw [← hcube]
      exact_mod_cast Real.pow_rpow_inv_natCast hnonneg three_ne_zero
    rw [hroot]
    exact ⟨hfinite, hnear.trans (by norm_num)⟩
  value_cbrt_nonneg hx := Binary64.value_cbrt_nonneg hx
  cbrt_zero := by decide +kernel
  cos hx := ⟨(abs_cos_sub_le hx).1, (abs_cos_sub_le hx).2⟩
  sin hx := ⟨(abs_sin_sub_le hx).1, (abs_sin_sub_le hx).2⟩
  atan2 hx hy := by
    obtain ⟨hfinite, φ, hle, hdirection, hnear⟩ := exists_direction hx hy
    exact ⟨φ, hle, hdirection, hfinite, hnear.trans (by norm_num)⟩
  pow hx hy := by
    obtain ⟨hfinite, hnear⟩ := abs_pow_sub_le (by linarith [hx.le_value]) hx.value_le hy
    exact ⟨hfinite, hnear.trans (by norm_num)⟩
  between_pow hx hy := Binary64.between_pow (by linarith [hx.le_value]) hx.value_le hy

end Swatch
