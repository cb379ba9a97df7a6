import Swatch.Proofs.Decimal.Trimmed
import Swatch.Proofs.Form.Written
/-!
How the functions write an alpha, and how it is read again.

An alpha below one is rounded to hundredths.  The functions between commas read the rounded text and
show the number again, the `oklch` function takes the zeros off the text itself; both come to the
same text, but for a zero before the point that only the second leaves out.

* `exists_readAlpha_hundredthsText`: the number of hundredths is read from either text.
* `Oklch.alphaPart_eq`: what the `oklch` function writes.
* `Sample.alphaTexts_agree`: every function shows an alpha below one, and all the same number.
-/

namespace Swatch

open Binary64 Decimal Parts

/-- A number of hundredths is read from its text, with the zero before its point or without. -/
lemma exists_readAlpha_hundredthsText (n : Nat) :
    ∃ x, IsRounded ((n : ℚ) / 100) x ∧ IsTrimmed (hundredthsText n) ∧
      IsTrimmed (Text.withoutLeadingZero (hundredthsText n)) ∧
      readAlpha (some (hundredthsText n)) = .ok (some x) ∧
      readAlpha (some (Text.withoutLeadingZero (hundredthsText n))) = .ok (some x) := by
  obtain ⟨x, hx, hround⟩ := exists_readNumber_hundredthsText n
  have htrimmed : IsTrimmed (hundredthsText n) := by
    rw [← trimFraction_hundredths]
    exact isTrimmed_trimFraction 2 n
  obtain ⟨htrimmed', hx'⟩ := htrimmed.withoutLeadingZero hx
  refine ⟨x, hround, htrimmed, htrimmed', ?_, ?_⟩
  · rw [readAlpha_of_isDecimal htrimmed.isDecimal, hx]
    rfl
  · rw [readAlpha_of_isDecimal htrimmed'.isDecimal, hx']
    rfl

/-- The `oklch` function takes the zeros off the rounded alpha. -/
lemma Oklch.alphaPart_eq {s : Sample} {a : Binary64} {n : Nat} (ha : s.alpha = some a)
    (hlt : a < 1) (hn : a.fixedText 2 = .ok (scaledText ⟨n, -2⟩)) : Oklch.alphaPart s
      = .ok (" / ".toList ++ Text.withoutLeadingZero (hundredthsText n)) := by
  have htext : scaledText ⟨n, -2⟩ = pointText 2 n := scaledText_neg (by norm_num) (by norm_num) n
  rw [htext] at hn
  rw [Oklch.alphaPart, ha]
  simp only
  rw [if_pos hlt, hn, ← trimFraction_hundredths, ← trimAlpha_pointText]
  rfl

/-! ### The forms -/

section Forms

variable {s : Sample} {t : Text}

/-- The `rgb` function ends with the text of the alpha. -/
lemma Rgb.exists_write_eq (hs : s.InGamut) (hnonneg : s.AlphaNonneg)
    (ht : Layout.alphaText s = .ok (some t)) (functional : Bool) : ∃ red green blue,
      Rgb.write s functional = .ok (Layout.commas "rgb".toList [red, green, blue]
        [red, green, blue] (some t) functional) := by
  obtain ⟨text, htext⟩ := Form.rgb.exists_write hs hnonneg functional
  have hwrite : Rgb.write s functional = .ok text := htext
  rw [Rgb.write] at hwrite
  obtain ⟨red, hred, hwrite⟩ := bind_eq_ok.mp hwrite
  obtain ⟨green, hgreen, hwrite⟩ := bind_eq_ok.mp hwrite
  obtain ⟨blue, hblue, hwrite⟩ := bind_eq_ok.mp hwrite
  obtain ⟨alpha, halpha, hwrite⟩ := bind_eq_ok.mp hwrite
  obtain rfl : some t = alpha := Except.ok.inj (ht.symm.trans halpha)
  exact ⟨red, green, blue, htext.trans hwrite.symm⟩

/-- The `hsl` function ends with the text of the alpha. -/
lemma Hsl.exists_write_eq (hs : s.InGamut) (hnonneg : s.AlphaNonneg)
    (ht : Layout.alphaText s = .ok (some t)) (functional : Bool) : ∃ hue saturation lightness,
      Hsl.write s functional = .ok (Layout.commas "hsl".toList
        [hue, saturation ++ ['%'], lightness ++ ['%']] [hue, saturation, lightness] (some t)
        functional) := by
  obtain ⟨text, htext⟩ := Form.hsl.exists_write hs hnonneg functional
  have hwrite : Hsl.write s functional = .ok text := htext
  rw [Hsl.write] at hwrite
  obtain ⟨hsl, hhsl, hwrite⟩ := bind_eq_ok.mp hwrite
  obtain ⟨hue, hhue, hwrite⟩ := bind_eq_ok.mp hwrite
  obtain ⟨saturation, hsaturation, hwrite⟩ := bind_eq_ok.mp hwrite
  obtain ⟨lightness, hlightness, hwrite⟩ := bind_eq_ok.mp hwrite
  obtain ⟨alpha, halpha, hwrite⟩ := bind_eq_ok.mp hwrite
  obtain rfl : some t = alpha := Except.ok.inj (ht.symm.trans halpha)
  exact ⟨hue, _, _, htext.trans hwrite.symm⟩

/-- The `oklch` function ends with the part of the alpha. -/
lemma Oklch.exists_write_eq [Elementary] [Elementary.IsAccurate] {part : Text} (hs : s.InGamut)
    (hnonneg : s.AlphaNonneg)
    (hpart : Oklch.alphaPart s = .ok part) (functional : Bool) : ∃ lightness chroma hue,
      Oklch.write s functional = .ok (if functional then
        "oklch(".toList ++ lightness ++ '%' :: ' ' :: chroma ++ ' ' :: hue ++ part ++ [')']
        else lightness ++ ' ' :: chroma ++ ' ' :: hue ++ part) := by
  obtain ⟨text, htext⟩ := Form.oklch.exists_write hs hnonneg functional
  have hwrite : Oklch.write s functional = .ok text := htext
  rw [Oklch.write] at hwrite
  obtain ⟨lch, hlch, hwrite⟩ := bind_eq_ok.mp hwrite
  obtain ⟨lightness, hlightness, hwrite⟩ := bind_eq_ok.mp hwrite
  obtain ⟨chroma, hchroma, hwrite⟩ := bind_eq_ok.mp hwrite
  obtain ⟨hue, hhue, hwrite⟩ := bind_eq_ok.mp hwrite
  obtain ⟨alpha, halpha, hwrite⟩ := bind_eq_ok.mp hwrite
  obtain rfl : part = alpha := Except.ok.inj (hpart.symm.trans halpha)
  cases functional with
  | false => exact ⟨_, _, _, htext.trans hwrite.symm⟩
  | true => exact ⟨_, _, _, htext.trans hwrite.symm⟩

end Forms

/-- **The two ways to write an alpha agree**: an alpha below one and not below zero is rounded to
hundredths, a half up.  The `rgb` and `hsl` functions end with the number of hundredths, the `oklch`
function with the same text without the zero before its point.  Neither text has an exponent, a
point at its end or a zero at the end of its fraction, and both are read as the number nearest to
the rounded alpha. -/
theorem Sample.alphaTexts_agree [Elementary] [Elementary.IsAccurate] {a : Binary64} (h0 : 0 ≤ a)
    (h1 : a < 1) : ∃ (n : Nat) (t u : Text) (x : Binary64),
      ((n : ℚ) ≤ a.value * 100 + 1 / 2 ∧ a.value * 100 + 1 / 2 < n + 1) ∧
      (x.isFinite = true ∧ x.value = nearest (n / 100)) ∧
      readAlpha (some t) = .ok (some x) ∧ readAlpha (some u) = .ok (some x) ∧
      t = hundredthsText n ∧ u = Text.withoutLeadingZero t ∧ IsTrimmed t ∧ IsTrimmed u ∧
      ∀ s : Sample, s.alpha = some a →
        Layout.alphaText s = .ok (some t) ∧ Oklch.alphaPart s = .ok (" / ".toList ++ u) ∧
        (s.InGamut → ∀ functional,
          (∃ red green blue, Rgb.write s functional = .ok (Layout.commas "rgb".toList
            [red, green, blue] [red, green, blue] (some t) functional)) ∧
          (∃ hue saturation lightness, Hsl.write s functional = .ok (Layout.commas "hsl".toList
            [hue, saturation ++ ['%'], lightness ++ ['%']] [hue, saturation, lightness] (some t)
            functional)) ∧
          ∃ lightness chroma hue, Oklch.write s functional = .ok (if functional then
            "oklch(".toList ++ lightness ++ '%' :: ' ' :: chroma ++ ' ' :: hue
              ++ (" / ".toList ++ u) ++ [')']
            else lightness ++ ' ' :: chroma ++ ' ' :: hue ++ (" / ".toList ++ u))) := by
  obtain ⟨n, hle, hlow, hhigh, hn⟩ := Binary64.exists_hundredths h0 h1
  obtain ⟨x, hround, htrimmed, htrimmed', hx, hx'⟩ := exists_readAlpha_hundredthsText n
  have hmem : Between (0 : Nat) (1 : Nat) x := by
    refine hround.between (representable_natCast (by norm_num))
      (representable_natCast (by norm_num)) ?_ ?_
    · positivity
    · rw [div_le_iff₀ (by norm_num)]
      exact_mod_cast hle
  refine ⟨n, hundredthsText n, _, x, ⟨by linarith, by linarith⟩,
    ⟨hmem.isFinite, hround.value_eq hmem.isFinite⟩, hx, hx', rfl, rfl, htrimmed, htrimmed',
    fun s ha => ?_⟩
  have htext := Layout.alphaText_eq ha h1 hle hn
  have hpart := Oklch.alphaPart_eq ha h1 hn
  refine ⟨htext, hpart, fun hs functional => ?_⟩
  have hnonneg : s.AlphaNonneg := by
    intro b hb
    obtain rfl : a = b := Option.some.inj (ha.symm.trans hb)
    exact h0
  exact ⟨Rgb.exists_write_eq hs hnonneg htext functional,
    Hsl.exists_write_eq hs hnonneg htext functional,
    Oklch.exists_write_eq hs hnonneg hpart functional⟩

/-- An alpha half way between two numbers of hundredths is rounded up. -/
theorem Sample.alphaTexts_half : ((0 : Binary64) ≤ 0.125 ∧ (0.125 : Binary64) < 1) ∧
    ∃ x, readAlpha (some "0.13".toList) = .ok (some x) ∧
      readAlpha (some ".13".toList) = .ok (some x) ∧
      ∀ s : Sample, s.alpha = some 0.125 → Layout.alphaText s = .ok (some "0.13".toList) ∧
        Oklch.alphaPart s = .ok " / .13".toList := by
  obtain ⟨hfinite, hvalue⟩ : (0.125 : Binary64).isFinite = true ∧
      (0.125 : Binary64).value = 1 / 2 ^ 3 := by
    have hround := isRounded_ofScientific 125 3
    have heighth : ((125 : Nat) : ℚ) / 10 ^ 3 = 1 / 2 ^ 3 := by norm_num
    rw [heighth] at hround
    exact hround.exact (representable_two_pow_inv (by norm_num))
  have h0 : (0 : Binary64) ≤ 0.125 := by
    rw [le_iff (isFinite_ofNat (by norm_num)) hfinite, hvalue, value_ofNat (by norm_num)]
    norm_num
  have h1 : (0.125 : Binary64) < 1 := by
    rw [lt_iff hfinite (isFinite_ofNat (by norm_num)), hvalue, value_ofNat (by norm_num)]
    norm_num
  obtain ⟨n, t, u, x, ⟨hlow, hhigh⟩, -, hx, hx', rfl, rfl, -, -, hs⟩ :=
    Sample.alphaTexts_agree h0 h1
  rw [hvalue] at hlow hhigh
  have hn : n = 13 := by
    have hle : n ≤ 13 := by exact_mod_cast (by linarith : (n : ℚ) ≤ 13)
    have hlt : 12 < n := by exact_mod_cast (by linarith : (12 : ℚ) < n)
    omega
  subst hn
  exact ⟨⟨h0, h1⟩, x, hx, hx', fun s ha => ⟨(hs s ha).1, (hs s ha).2.1⟩⟩

end Swatch
