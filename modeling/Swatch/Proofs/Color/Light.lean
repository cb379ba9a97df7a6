import Swatch.Color.Companding
import Swatch.Proofs.Binary64.Accurate
import Swatch.Proofs.Color.Hsl
/-!
The light of the channels of a colour.

* `base_spec`: the base of the power is neither tiny nor above one.
* `linearOfByte_spec`: the light of a channel lies between zero and one, and there is no fault.
-/

namespace Swatch

open Binary64

/-- A decimal that is written in a definition lies between numbers of the format that it lies
between. -/
lemma between_ofScientific {lo hi : ℚ} {m e : Nat} (hlo : Representable lo)
    (hhi : Representable hi) (h1 : lo ≤ (m : ℚ) / 10 ^ e) (h2 : (m : ℚ) / 10 ^ e ≤ hi) :
    Between lo hi (OfScientific.ofScientific m true e) :=
  (isRounded_ofScientific m e).between hlo hhi h1 h2

/-- The base of the power in the companding is not tiny, and at most one. -/
lemma base_spec {v : Binary64} (hv : Between 0 1 v) :
    Between (1 / 2 ^ 6) 1 ((v + 0.055) / 1.055) := by
  have hoffset : Between (1 / 2 ^ 5) 1 (0.055 : Binary64) :=
    between_ofScientific (representable_two_pow_inv (by norm_num)) representable_one
      (by norm_num) (by norm_num)
  have hdivisor : Between 1 2 (1.055 : Binary64) :=
    between_ofScientific representable_one (representable_ofNat (by norm_num)) (by norm_num)
      (by norm_num)
  have hsum := isRounded_add hv.isFinite hoffset.isFinite
  have hsumb : Between (1 / 2 ^ 5) 2 (v + 0.055) :=
    hsum.between (representable_two_pow_inv (by norm_num)) (representable_ofNat (by norm_num))
      (by linarith [hv.le_value, hoffset.le_value]) (by linarith [hv.value_le, hoffset.value_le])
  -- the largest base is one because the sum at one is rounded to no more than the divisor
  have htop : (v + 0.055).value ≤ (1.055 : Binary64).value := by
    have honef : (1 : Binary64).isFinite = true := isFinite_ofNat (by norm_num)
    have hmax := isRounded_add honef hoffset.isFinite
    have hmaxf : ((1 : Binary64) + 0.055).isFinite = true := by decide +kernel
    have hle : (v + 0.055).value ≤ ((1 : Binary64) + 0.055).value := by
      refine hsum.value_mono hmax hsumb.isFinite hmaxf ?_
      rw [value_ofNat (by norm_num), Nat.cast_one]
      linarith [hv.value_le]
    refine hle.trans ((le_iff hmaxf hdivisor.isFinite).mp ?_)
    decide +kernel
  have hpos : (0 : ℚ) < (1.055 : Binary64).value := by linarith [hdivisor.le_value]
  have hquotient := isRounded_div hsumb.isFinite hdivisor.isFinite hpos.ne'
  refine hquotient.between (representable_two_pow_inv le_rfl) representable_one ?_
    ((div_le_one hpos).mpr htop)
  rw [le_div_iff₀ hpos]
  linarith [hsumb.le_value, hdivisor.value_le]

variable [Elementary] [Elementary.IsAccurate]

/-- The power in the companding. -/
lemma between_companding {v : Binary64} (hv : Between 0 1 v) :
    Between 0 1 (Elementary.pow ((v + 0.055) / 1.055) 2.4) := by
  have hbase := base_spec hv
  have hexponent : Between 2 3 (2.4 : Binary64) :=
    between_ofScientific (representable_ofNat (by norm_num))
      (representable_ofNat (by norm_num)) (by norm_num) (by norm_num)
  have hexponent_pos : (0 : ℚ) < (2.4 : Binary64).value := by linarith [hexponent.le_value]
  exact Elementary.IsAccurate.between_pow (hbase.mono (by norm_num) le_rfl) hexponent_pos

/-- The light of a channel lies between zero and one. -/
theorem linearOfByte_spec {c : Binary64} (hc : Between 0 255 c) :
    ∃ x, linearOfByte c = .ok x ∧ Between 0 1 x := by
  have hv : Between 0 1 (c / 255) :=
    Between.div_ofNat (by exact_mod_cast hc) (by norm_num) (by norm_num)
  have hpow := between_companding hv
  rw [linearOfByte]
  set v := c / 255
  simp only
  split_ifs with hline hlarge
  · refine ⟨_, rfl, ?_⟩
    have hslope : Between 1 13 (12.92 : Binary64) :=
      between_ofScientific representable_one
        (representable_ofNat (by norm_num)) (by norm_num) (by norm_num)
    have hq := between_div (l := 0) (u := 1) hv.isFinite hslope.isFinite
      (by linarith [hslope.le_value]) (by norm_num) (by norm_num)
      (by push_cast; linarith [hv.le_value])
      (by push_cast; linarith [hv.value_le, hslope.le_value])
    exact_mod_cast hq
  · -- the power is finite, so that there is no fault
    rw [hpow.isFinite, Bool.not_true, Bool.and_false] at hlarge
    exact absurd hlarge (by simp)
  · exact ⟨_, rfl, hpow⟩

end Swatch
