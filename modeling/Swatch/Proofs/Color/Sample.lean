import Swatch.Color.Sample
import Swatch.Proofs.Binary64.Bounds
import Swatch.Proofs.Binary64.Integer
/-!
Colours within the gamut.

* `Sample.InGamut`: every channel lies between 0 and 255.
* `Sample.clamped_eq_ok_iff`: a colour is clamped just if its channels are finite, and then lies in
  the gamut with the alpha that it had.
* `Sample.IsOpaque`: there is no alpha, or it is at least one.
* `Sample.IsIntegral`: the channels of a colour are integers, which need not lie in the gamut; those
  of the clamped colour do (`Sample.IsIntegral.clamped_eq`).
-/

namespace Swatch

open Binary64

/-- Every channel lies between 0 and 255. -/
structure Sample.InGamut (s : Sample) : Prop where
  red : Between 0 255 s.red
  green : Between 0 255 s.green
  blue : Between 0 255 s.blue

/-- There is no alpha, or it is at least one. -/
def Sample.IsOpaque (s : Sample) : Prop := ∀ a ∈ s.alpha, 1 ≤ a

/-- A finite number is clamped between the bounds of a channel. -/
lemma Binary64.between_clamp {x : Binary64} (hx : x.isFinite = true) :
    Between 0 255 (x.clamp 0 255) := by
  have hzero : (0 : Binary64).isFinite = true := isFinite_ofNat (by norm_num)
  have htop : (255 : Binary64).isFinite = true := isFinite_ofNat (by norm_num)
  have hmin := isFinite_min htop hx
  refine ⟨isFinite_max hzero hmin, ?_, ?_⟩
  · rw [clamp, value_max hzero hmin, value_ofNat (by norm_num)]
    exact_mod_cast le_max_left _ _
  · rw [clamp, value_max hzero hmin, value_min htop hx, value_ofNat (by norm_num),
      value_ofNat (by norm_num)]
    exact max_le (by norm_num) (min_le_left _ _)

namespace Sample

variable {s c : Sample}

lemma clamped_eq_ok_iff : s.clamped = .ok c ↔
    (s.red.isFinite = true ∧ s.green.isFinite = true ∧ s.blue.isFinite = true) ∧
      c = ⟨s.red.clamp 0 255, s.green.clamp 0 255, s.blue.clamp 0 255, s.alpha⟩ := by
  rw [clamped]
  split_ifs with h
  · rw [Bool.and_eq_true, Bool.and_eq_true, and_assoc] at h
    rw [Except.ok.injEq, eq_comm, and_iff_right h]
  · rw [Bool.and_eq_true, Bool.and_eq_true, and_assoc] at h
    exact iff_of_false (by simp) fun hc => h hc.1

/-- A clamped colour lies in the gamut. -/
theorem inGamut_of_clamped (h : s.clamped = .ok c) : c.InGamut ∧ c.alpha = s.alpha := by
  obtain ⟨⟨hred, hgreen, hblue⟩, rfl⟩ := clamped_eq_ok_iff.mp h
  exact ⟨⟨between_clamp hred, between_clamp hgreen, between_clamp hblue⟩, rfl⟩

/-- The alpha of an opaque colour is not below one. -/
lemma IsOpaque.not_lt (h : s.IsOpaque) {a : Binary64} (ha : s.alpha = some a) : ¬ a < 1 :=
  not_lt_of_le (h a ha)

end Sample

/-! ### Integer channels -/

/-- The channels are integers, rounded to numbers of the format, and none is too large for it. -/
def Sample.IsIntegral (s : Sample) : Prop := ∃ red green blue : ℤ,
  (ofInt red).isFinite = true ∧ (ofInt green).isFinite = true ∧ (ofInt blue).isFinite = true ∧
    s = ⟨ofInt red, ofInt green, ofInt blue, s.alpha⟩

namespace Binary64

/-- An integer that is too large becomes an infinity, and no integer a NaN. -/
lemma ofInt_ne_nan (n : ℤ) : ofInt n ≠ .nan := by
  rw [ofInt, round]
  split_ifs <;> simp

lemma ofInt?_eq_some_iff {n : ℤ} {x : Binary64} :
    ofInt? n = some x ↔ (ofInt n).isFinite = true ∧ x = ofInt n := by
  have hnan := ofInt_ne_nan n
  -- opened before it is applied: a test on the number itself would be computed
  obtain ⟨f, hf⟩ : ∃ f, f = ofInt? := ⟨_, rfl⟩
  rw [← hf]
  delta ofInt? at hf
  rw [hf]
  beta_reduce
  generalize ofInt n = y at hnan ⊢
  cases y with
  | nan => exact absurd rfl hnan
  | infinity negative => simp [isFinite]
  | finite negative units hgrid => simp [isFinite, eq_comm]

end Binary64

lemma Sample.ofIntegers_eq_ok_iff {red green blue : ℤ} {alpha : Option Binary64} {c : Sample} :
    Sample.ofIntegers red green blue alpha = .ok c ↔
      ((ofInt red).isFinite = true ∧ (ofInt green).isFinite = true ∧
        (ofInt blue).isFinite = true) ∧ c = ⟨ofInt red, ofInt green, ofInt blue, alpha⟩ := by
  obtain ⟨f, hf⟩ : ∃ f, f = Sample.ofIntegers := ⟨_, rfl⟩
  rw [← hf]
  delta Sample.ofIntegers at hf
  rw [hf]
  beta_reduce
  constructor
  · intro h
    generalize hr : ofInt? red = r at h
    generalize hg : ofInt? green = g at h
    generalize hb : ofInt? blue = b at h
    split at h
    · obtain ⟨hred, rfl⟩ := ofInt?_eq_some_iff.mp hr
      obtain ⟨hgreen, rfl⟩ := ofInt?_eq_some_iff.mp hg
      obtain ⟨hblue, rfl⟩ := ofInt?_eq_some_iff.mp hb
      exact ⟨⟨hred, hgreen, hblue⟩, (Except.ok.inj h).symm⟩
    · exact absurd h (by simp)
  · rintro ⟨⟨hred, hgreen, hblue⟩, rfl⟩
    rw [ofInt?_eq_some_iff.mpr ⟨hred, rfl⟩, ofInt?_eq_some_iff.mpr ⟨hgreen, rfl⟩,
      ofInt?_eq_some_iff.mpr ⟨hblue, rfl⟩]

lemma Sample.isIntegral_of_ofIntegers {red green blue : ℤ} {alpha : Option Binary64} {c : Sample}
    (h : Sample.ofIntegers red green blue alpha = .ok c) : c.IsIntegral ∧ c.alpha = alpha := by
  obtain ⟨⟨hred, hgreen, hblue⟩, rfl⟩ := Sample.ofIntegers_eq_ok_iff.mp h
  exact ⟨⟨red, green, blue, hred, hgreen, hblue, rfl⟩, rfl⟩

/-! ### Clamped channels -/

/-- An integer channel in the gamut is a number of the format. -/
lemma isFinite_ofInt {n : ℤ} (hn : 0 ≤ n ∧ n ≤ 255) : (ofInt n).isFinite = true :=
  (value_ofInt (by omega)).1

/-- An integer held between the bounds of a channel. -/
def clampChannel (n : ℤ) : ℤ := max 0 (min 255 n)

lemma clampChannel_mem (n : ℤ) : 0 ≤ clampChannel n ∧ clampChannel n ≤ 255 :=
  ⟨le_max_left _ _, max_le (by norm_num) (min_le_left _ _)⟩

lemma clampChannel_of_mem {n : ℤ} (hn : 0 ≤ n ∧ n ≤ 255) : clampChannel n = n := by
  rw [clampChannel, min_eq_right hn.2, max_eq_right hn.1]

/-- What is clamped to an integer is that byte, a zero without a sign. -/
lemma Binary64.clamp_eq_ofInt {x : Binary64} (hx : x.isFinite = true) {n : ℤ}
    (h : (x.clamp 0 255).value = n) : (0 ≤ n ∧ n ≤ 255) ∧ x.clamp 0 255 = ofInt n := by
  obtain ⟨hfinite, hlow, hhigh⟩ := between_clamp hx
  rw [h] at hlow hhigh
  have hn : 0 ≤ n ∧ n ≤ 255 := ⟨by exact_mod_cast hlow, by exact_mod_cast hhigh⟩
  refine ⟨hn, ?_⟩
  obtain ⟨-, hvalue⟩ := value_ofInt (n := n) (by omega)
  rcases hn.1.lt_or_eq with hpos | rfl
  · refine eq_of_value_pos ?_ (h.trans hvalue.symm)
    rw [h]
    exact_mod_cast hpos
  · -- a clamped number that is not positive is the lower bound itself
    have hzero : (0 : Binary64).isFinite = true := isFinite_ofNat (by norm_num)
    have hmin := isFinite_min (isFinite_ofNat (by norm_num) : (255 : Binary64).isFinite = true) hx
    change (if 0 < min 255 x then min 255 x else 0) = ofInt 0
    split_ifs with hlt
    · rw [clamp, max, if_pos hlt] at h
      rw [lt_iff hzero hmin, h, value_ofNat (by norm_num)] at hlt
      exact absurd hlt (by norm_num)
    · rfl

/-- Integer channels are clamped one by one. -/
lemma Sample.clamped_ofInt {red green blue : ℤ} (hred : (ofInt red).isFinite = true)
    (hgreen : (ofInt green).isFinite = true) (hblue : (ofInt blue).isFinite = true)
    (alpha : Option Binary64) : Sample.clamped ⟨ofInt red, ofInt green, ofInt blue, alpha⟩
      = .ok ⟨ofInt (clampChannel red), ofInt (clampChannel green), ofInt (clampChannel blue),
        alpha⟩ := by
  refine Sample.clamped_eq_ok_iff.mpr ⟨⟨hred, hgreen, hblue⟩, ?_⟩
  rw [clamp_ofInt hred, clamp_ofInt hgreen, clamp_ofInt hblue]
  rfl

/-- The channels of a clamped colour are integers of the gamut. -/
lemma Sample.IsIntegral.clamped_eq {s : Sample} (h : s.IsIntegral) : ∃ red green blue : ℤ,
    (0 ≤ red ∧ red ≤ 255) ∧ (0 ≤ green ∧ green ≤ 255) ∧ (0 ≤ blue ∧ blue ≤ 255) ∧
      s.clamped = .ok ⟨ofInt red, ofInt green, ofInt blue, s.alpha⟩ := by
  obtain ⟨red, green, blue, hred, hgreen, hblue, hs⟩ := h
  refine ⟨clampChannel red, clampChannel green, clampChannel blue, clampChannel_mem red,
    clampChannel_mem green, clampChannel_mem blue, ?_⟩
  rw [hs]
  exact Sample.clamped_ofInt hred hgreen hblue s.alpha

/-- A colour of integer channels in the gamut is clamped already. -/
lemma Sample.clamped_integers {red green blue : ℤ} (hred : 0 ≤ red ∧ red ≤ 255)
    (hgreen : 0 ≤ green ∧ green ≤ 255) (hblue : 0 ≤ blue ∧ blue ≤ 255)
    (alpha : Option Binary64) : Sample.clamped ⟨ofInt red, ofInt green, ofInt blue, alpha⟩
      = .ok ⟨ofInt red, ofInt green, ofInt blue, alpha⟩ := by
  have hclamped := Sample.clamped_ofInt (isFinite_ofInt hred) (isFinite_ofInt hgreen)
    (isFinite_ofInt hblue) alpha
  rwa [clampChannel_of_mem hred, clampChannel_of_mem hgreen, clampChannel_of_mem hblue] at hclamped

end Swatch
