import Swatch.Document.Basic
import Swatch.Proofs.Color.OklchError
import Swatch.Proofs.Decimal.Places
/-!
A colour in the gamut can be written in every form.

* `Sample.exists_alphaText`: an alpha that is not negative has a text.
* `Form.exists_write`: so a colour in the gamut with such an alpha, or with none, has a text in
  every form: no division by zero comes up, nothing that is rounded to an integer is infinite, and
  no number has too many digits.
* `Form.write_of_not_isTranslucent`: a colour that is not translucent is written without its alpha.
* `Sample.exists_write_of_finite`: so every form writes what is clamped, and a colour is clamped
  just if its channels are finite.
-/

namespace Swatch

open Binary64

/-! ### The alpha -/

/-- The alpha, if there is one, is not negative. -/
def Sample.AlphaNonneg (s : Sample) : Prop := ∀ a ∈ s.alpha, 0 ≤ a

/-- An alpha below one is a finite number between zero and one. -/
lemma Binary64.between_of_lt_one {a : Binary64} (h0 : 0 ≤ a) (h1 : a < 1) : Between 0 1 a := by
  have hzero : (0 : Binary64).isFinite = true := isFinite_ofNat (by norm_num)
  have hone : (1 : Binary64).isFinite = true := isFinite_ofNat (by norm_num)
  have hfinite : a.isFinite = true := by
    cases a with
    | finite => rfl
    | nan => exact absurd h1 (by decide)
    | infinity negative =>
        cases negative with
        | false => exact absurd h1 (not_lt_of_le (le_infinity hone))
        | true => exact absurd (infinity_lt hzero) (not_lt_of_le h0)
  rw [le_iff hzero hfinite, value_ofNat (by norm_num)] at h0
  rw [lt_iff hfinite hone, value_ofNat (by norm_num)] at h1
  exact ⟨hfinite, by exact_mod_cast h0, by exact_mod_cast h1.le⟩

/-- The rounded text of an alpha between zero and one is that of a finite number. -/
lemma fixedText_alpha {a : Binary64} (h : Between 0 1 a) :
    ∃ t x, a.fixedText 2 = .ok t ∧ readNumber t = .ok x ∧ x.isFinite = true := by
  obtain ⟨negative, units, hgrid, rfl⟩ := exists_finite h.isFinite
  have hwithin : Within 1 (.finite negative units hgrid) := Between.within (by exact_mod_cast h)
  have hmagnitude := hwithin.scaledMagnitude_le 2
  have htext : fixedText (.finite negative units hgrid) (2 : Nat) = _ :=
    hwithin.fixedText_eq (by norm_num) (by norm_num [Decimal.maxDigits])
  rw [sign_of_value_nonneg h.le_value, withSign, if_neg Bool.false_ne_true, Nat.cast_ofNat] at htext
  rw [Nat.cast_ofNat] at hmagnitude
  set n := scaledMagnitude units 2
  have hscaled : Decimal.scaledText ⟨n, -2⟩ = Decimal.pointText 2 n :=
    Decimal.scaledText_neg (by norm_num) (by norm_num) n
  obtain ⟨x, hx, hround⟩ := exists_readNumber_pointText 2 n
  have hbetween : Between (0 : Nat) (2 : Nat) x := by
    refine hround.between (representable_natCast (by norm_num))
      (representable_natCast (by norm_num)) ?_ ?_
    · positivity
    · have hle : (n : ℚ) ≤ 200 := by exact_mod_cast (by omega : n ≤ 200)
      rw [Nat.cast_ofNat, div_le_iff₀ (by norm_num)]
      linarith
  exact ⟨_, x, htext, hscaled ▸ hx, hbetween.isFinite⟩

namespace Sample

variable {s : Sample}

/-- The alpha of `rgb` and `hsl` can be written and read back. -/
lemma exists_alphaText (ha : s.AlphaNonneg) : ∃ t, Layout.alphaText s = .ok t := by
  rw [Layout.alphaText]
  split
  · next a h =>
    split_ifs with hlt
    · obtain ⟨t, x, ht, hx, hfinite⟩ := fixedText_alpha (between_of_lt_one (ha a h) hlt)
      obtain ⟨negative, units, hgrid, rfl⟩ := exists_finite hfinite
      rw [ht]
      simp only [bind, Except.bind, hx]
      exact ⟨_, rfl⟩
    · exact ⟨_, rfl⟩
  · exact ⟨_, rfl⟩

/-- The alpha of `oklch` can be written. -/
lemma exists_alphaPart (ha : s.AlphaNonneg) : ∃ t, Oklch.alphaPart s = .ok t := by
  rw [Oklch.alphaPart]
  split
  · next a h =>
    split_ifs with hlt
    · obtain ⟨t, x, ht, -⟩ := fixedText_alpha (between_of_lt_one (ha a h) hlt)
      rw [ht]
      exact ⟨_, rfl⟩
    · exact ⟨_, rfl⟩
  · exact ⟨_, rfl⟩

end Sample

/-! ### The forms -/

/-- A finite channel has its two digits. -/
lemma Hex.exists_channelText {x : Binary64} (hx : x.isFinite = true) :
    ∃ t, Hex.channelText x = .ok t := by
  obtain ⟨n, hn⟩ := exists_roundHalfUp hx
  rw [Hex.channelText, hn]
  exact ⟨_, rfl⟩

/-- The digits of the alpha of a translucent colour. -/
def Hex.alphaText (s : Sample) : Except Fault Text :=
  match s.alpha with
  | some a => if a < 1 then Hex.channelText (a * 255) else .ok []
  | none => .ok []

/-- The digits of a colour are those of its channels and then those of its alpha. -/
lemma Hex.write_eq (s : Sample) (functional : Bool) : Hex.write s functional = do
    let red ← Hex.channelText s.red
    let green ← Hex.channelText s.green
    let blue ← Hex.channelText s.blue
    let alpha ← Hex.alphaText s
    return (if functional then ['#'] else []) ++ red ++ green ++ blue ++ alpha := by
  obtain ⟨r, g, b, alpha⟩ := s
  rw [Hex.write]
  cases alpha with
  | none => rfl
  | some a =>
      rw [Hex.alphaText]
      simp only
      split_ifs <;> rfl

lemma Hex.exists_alphaText {s : Sample} (ha : s.AlphaNonneg) : ∃ t, Hex.alphaText s = .ok t := by
  rw [Hex.alphaText]
  split
  · next a h =>
    split_ifs with hlt
    · have halpha : Between 0 (255 : Nat) (a * 255) :=
        (between_of_lt_one (ha a h) hlt).mul_ofNat (by norm_num)
      exact Hex.exists_channelText halpha.isFinite
    · exact ⟨_, rfl⟩
  · exact ⟨_, rfl⟩

lemma Hex.exists_write {s : Sample} (hs : s.InGamut) (ha : s.AlphaNonneg) (functional : Bool) :
    ∃ t, Hex.write s functional = .ok t := by
  obtain ⟨red, hred⟩ := Hex.exists_channelText hs.red.isFinite
  obtain ⟨green, hgreen⟩ := Hex.exists_channelText hs.green.isFinite
  obtain ⟨blue, hblue⟩ := Hex.exists_channelText hs.blue.isFinite
  obtain ⟨alpha, halpha⟩ := Hex.exists_alphaText ha
  rw [Hex.write_eq, hred, hgreen, hblue, halpha]
  exact ⟨_, rfl⟩

lemma Rgb.exists_write {s : Sample} (hs : s.InGamut) (ha : s.AlphaNonneg) (functional : Bool) :
    ∃ t, Rgb.write s functional = .ok t := by
  obtain ⟨red, hred⟩ := exists_roundHalfUp hs.red.isFinite
  obtain ⟨green, hgreen⟩ := exists_roundHalfUp hs.green.isFinite
  obtain ⟨blue, hblue⟩ := exists_roundHalfUp hs.blue.isFinite
  obtain ⟨alpha, halpha⟩ := Sample.exists_alphaText ha
  rw [Rgb.write, hred, hgreen, hblue, halpha]
  exact ⟨_, rfl⟩

lemma Hsl.exists_write {s : Sample} (hs : s.InGamut) (ha : s.AlphaNonneg) (functional : Bool) :
    ∃ t, Hsl.write s functional = .ok t := by
  obtain ⟨c, hc, hrange⟩ := Hsl.ofSample_spec hs
  obtain ⟨hue, hhue⟩ : ∃ t, c.hue.fixedText (0 : Nat) = .ok t :=
    Within.exists_fixedText (Between.within (k := 360) (by exact_mod_cast hrange.hue))
      (by norm_num) (by norm_num [Decimal.maxDigits])
  obtain ⟨saturation, hsaturation⟩ : ∃ t, c.saturation.fixedText (1 : Nat) = .ok t :=
    Within.exists_fixedText (Between.within (k := 100) (by exact_mod_cast hrange.saturation))
      (by norm_num) (by norm_num [Decimal.maxDigits])
  obtain ⟨lightness, hlightness⟩ : ∃ t, c.lightness.fixedText (1 : Nat) = .ok t :=
    Within.exists_fixedText (Between.within (k := 100) (by exact_mod_cast hrange.lightness))
      (by norm_num) (by norm_num [Decimal.maxDigits])
  obtain ⟨alpha, halpha⟩ := Sample.exists_alphaText ha
  simp only [Nat.cast_zero, Nat.cast_one] at hhue hsaturation hlightness
  simp only [Hsl.write, hc, hhue, hsaturation, hlightness, halpha, bind, Except.bind]
  exact ⟨_, rfl⟩

lemma Oklch.exists_write [Elementary] [Elementary.IsAccurate] {s : Sample} (hs : s.InGamut)
    (ha : s.AlphaNonneg) (functional : Bool) :
    ∃ t, Oklch.write s functional = .ok t := by
  obtain ⟨c, hc, hl, hchroma, hhue⟩ := Oklch.ofSample_spec hs
  have hlwithin : Within 2 c.lightness := hl.mono (by norm_num) (by norm_num)
  obtain ⟨lightness, hlightness⟩ : ∃ t, (c.lightness * 100).fixedText (2 : Nat) = .ok t :=
    Within.exists_fixedText (hlwithin.mul (within_ofNat (n := 100) (by norm_num)) (by norm_num))
      (by norm_num) (by norm_num [Decimal.maxDigits])
  obtain ⟨chroma, hchroma⟩ : ∃ t, c.chroma.fixedText (4 : Nat) = .ok t :=
    Within.exists_fixedText (Between.within (k := 1) (by exact_mod_cast hchroma)) (by norm_num)
      (by norm_num [Decimal.maxDigits])
  obtain ⟨hue, hhue⟩ : ∃ t, c.hue.fixedText (2 : Nat) = .ok t :=
    Within.exists_fixedText (Between.within (k := 360) (by exact_mod_cast hhue)) (by norm_num)
      (by norm_num [Decimal.maxDigits])
  obtain ⟨alpha, halpha⟩ := Sample.exists_alphaPart ha
  simp only [Nat.cast_ofNat] at hlightness hchroma hhue
  simp only [Oklch.write, hc, hlightness, hchroma, hhue, halpha, bind, Except.bind]
  split_ifs <;> exact ⟨_, rfl⟩

/-- A colour in the gamut can be written in every form. -/
theorem Form.exists_write [Elementary] [Elementary.IsAccurate] (form : Form) {s : Sample}
    (hs : s.InGamut) (ha : s.AlphaNonneg) (functional : Bool) :
    ∃ t, form.write s functional = .ok t := by
  cases form with
  | hex => exact Hex.exists_write hs ha functional
  | rgb => exact Rgb.exists_write hs ha functional
  | hsl => exact Hsl.exists_write hs ha functional
  | oklch => exact Oklch.exists_write hs ha functional

/-! ### Opaque colours -/

namespace Sample

variable {s : Sample}

/-- A colour is not translucent if no alpha that it has is below one. -/
lemma isTranslucent_eq_false_iff : s.isTranslucent = false ↔ ∀ a ∈ s.alpha, ¬ a < 1 := by
  rw [isTranslucent]
  cases s.alpha with
  | none => simp
  | some a => simp

lemma IsOpaque.isTranslucent_eq_false (h : s.IsOpaque) : s.isTranslucent = false :=
  isTranslucent_eq_false_iff.mpr fun _ ha => h.not_lt ha

lemma alphaText_eq_none (h : s.isTranslucent = false) : Layout.alphaText s = .ok none := by
  rw [Layout.alphaText]
  split
  · next a ha => rw [if_neg (isTranslucent_eq_false_iff.mp h a ha)]
  · rfl

lemma alphaPart_eq_nil (h : s.isTranslucent = false) : Oklch.alphaPart s = .ok [] := by
  rw [Oklch.alphaPart]
  split
  · next a ha => rw [if_neg (isTranslucent_eq_false_iff.mp h a ha)]
  · rfl

lemma alphaDigits_eq_nil (h : s.isTranslucent = false) : Hex.alphaText s = .ok [] := by
  rw [Hex.alphaText]
  split
  · next a ha => rw [if_neg (isTranslucent_eq_false_iff.mp h a ha)]
  · rfl

end Sample

/-- A colour without its alpha. -/
def Sample.withoutAlpha (s : Sample) : Sample := { s with alpha := none }

lemma Sample.isTranslucent_withoutAlpha (s : Sample) : s.withoutAlpha.isTranslucent = false := rfl

/-- The alpha has no part in a hue, a saturation or a lightness. -/
lemma Hsl.ofSample_withoutAlpha (s : Sample) : Hsl.ofSample s.withoutAlpha = Hsl.ofSample s := rfl

lemma Oklch.ofSample_withoutAlpha [Elementary] (s : Sample) :
    Oklch.ofSample s.withoutAlpha = Oklch.ofSample s := rfl

/-- A colour that is not translucent is written without its alpha. -/
theorem Form.write_of_not_isTranslucent [Elementary] (form : Form) {s : Sample}
    (h : s.isTranslucent = false) (functional : Bool) :
    form.write s functional = form.write s.withoutAlpha functional := by
  have hnone := s.isTranslucent_withoutAlpha
  cases form with
  | hex =>
      rw [Form.write, Form.write, Hex.write_eq, Hex.write_eq, Sample.alphaDigits_eq_nil h,
        Sample.alphaDigits_eq_nil hnone]
      rfl
  | rgb =>
      rw [Form.write, Form.write, Rgb.write, Rgb.write, Sample.alphaText_eq_none h,
        Sample.alphaText_eq_none hnone]
      rfl
  | hsl =>
      rw [Form.write, Form.write, Hsl.write, Hsl.write, Hsl.ofSample_withoutAlpha,
        Sample.alphaText_eq_none h, Sample.alphaText_eq_none hnone]
  | oklch =>
      rw [Form.write, Form.write, Oklch.write, Oklch.write, Oklch.ofSample_withoutAlpha,
        Sample.alphaPart_eq_nil h, Sample.alphaPart_eq_nil hnone]

/-- An opaque colour is written without its alpha. -/
theorem Form.write_of_isOpaque [Elementary] (form : Form) {s : Sample} (h : s.IsOpaque)
    (functional : Bool) :
    form.write s functional = form.write s.withoutAlpha functional :=
  form.write_of_not_isTranslucent h.isTranslucent_eq_false functional

/-! ### Clamped colours -/

/-- A number that is not negative is zero or more, unless it is a NaN. -/
lemma Binary64.nonneg_of_not_lt {a : Binary64} (hnan : a ≠ .nan) (h : ¬ a < 0) : 0 ≤ a := by
  have hzero : (0 : Binary64).isFinite = true := isFinite_ofNat (by norm_num)
  cases a with
  | nan => exact absurd rfl hnan
  | infinity negative =>
      cases negative with
      | false => exact le_infinity hzero
      | true => exact absurd (infinity_lt hzero) h
  | finite negative units hgrid =>
      have hfinite : isFinite (.finite negative units hgrid) = true := rfl
      rw [lt_iff hfinite hzero, not_lt] at h
      exact (le_iff hzero hfinite).mpr h

/-- A colour in the gamut can be written even with an alpha that is a NaN: it is not below one, and
so it is left out. -/
lemma Form.exists_write_of_not_lt [Elementary] [Elementary.IsAccurate] (form : Form) {s : Sample}
    (hs : s.InGamut) (ha : ∀ a ∈ s.alpha, ¬ a < 0) (functional : Bool) :
    ∃ t, form.write s functional = .ok t := by
  cases htranslucent : s.isTranslucent with
  | false =>
      rw [form.write_of_not_isTranslucent htranslucent]
      have hgamut : s.withoutAlpha.InGamut := ⟨hs.red, hs.green, hs.blue⟩
      exact form.exists_write hgamut (by simp [Sample.AlphaNonneg, Sample.withoutAlpha]) functional
  | true =>
      refine form.exists_write hs (fun a h => nonneg_of_not_lt ?_ (ha a h)) functional
      rintro rfl
      rw [Sample.isTranslucent, Option.mem_def.mp h] at htranslucent
      exact absurd htranslucent (by decide)

/-- **What is clamped can be written**: a colour with an alpha that is not negative, or with none,
fails to be clamped just if a channel is infinite or a NaN.  Otherwise its channels are brought to
the gamut, its alpha stays, and no form fails to write it: every divisor is other than zero, what is
rounded to an integer is finite, and no rounded number has too many digits. -/
theorem Sample.exists_write_of_finite [Elementary] [Elementary.IsAccurate] (s : Sample)
    (ha : ∀ a ∈ s.alpha, ¬ a < 0) :
    (s.clamped = .error (.nonFinite s.red s.green s.blue) ↔
        ¬ (s.red.isFinite = true ∧ s.green.isFinite = true ∧ s.blue.isFinite = true)) ∧
      ((s.red.isFinite = true ∧ s.green.isFinite = true ∧ s.blue.isFinite = true) →
        ∃ c, s.clamped = .ok c ∧ c.InGamut ∧ c.alpha = s.alpha ∧
          ∀ (form : Form) (functional : Bool), ∃ t, form.write c functional = .ok t) := by
  have hclamped (hfinite : s.red.isFinite = true ∧ s.green.isFinite = true ∧
      s.blue.isFinite = true) : ∃ c, s.clamped = .ok c := ⟨_, clamped_eq_ok_iff.mpr ⟨hfinite, rfl⟩⟩
  refine ⟨⟨fun h hfinite => ?_, fun h => ?_⟩, fun hfinite => ?_⟩
  · obtain ⟨c, hc⟩ := hclamped hfinite
    rw [hc] at h
    exact absurd h (by simp)
  · rw [clamped, if_neg (by simpa [and_assoc] using h)]
  · obtain ⟨c, hc⟩ := hclamped hfinite
    obtain ⟨hgamut, halpha⟩ := inGamut_of_clamped hc
    refine ⟨c, hc, hgamut, halpha, fun form functional => ?_⟩
    exact form.exists_write_of_not_lt hgamut (by rwa [halpha]) functional

/-- Two channels that are hardly above zero and differ by as little as can be, and one above the
gamut. -/
theorem Sample.exists_write_subnormal :
    (∀ a ∈ (some 0.5 : Option Binary64), ¬ a < 0) ∧
      ∃ c, Sample.clamped ⟨300, .finite false 1 (by decide +kernel),
          .finite false 2 (by decide +kernel), some 0.5⟩ = .ok c ∧ c.InGamut ∧
        c.alpha = some 0.5 ∧ ∃ t, Form.hsl.write c true = .ok t := by
  have ha : ∀ a ∈ (some 0.5 : Option Binary64), ¬ a < 0 := by decide +kernel
  obtain ⟨-, hwrite⟩ := Sample.exists_write_of_finite ⟨300, .finite false 1 (by decide +kernel),
    .finite false 2 (by decide +kernel), some 0.5⟩ ha
  obtain ⟨c, hc, hgamut, halpha, hforms⟩ := hwrite ⟨by decide +kernel, rfl, rfl⟩
  exact ⟨ha, c, hc, hgamut, halpha, hforms .hsl true⟩

end Swatch
