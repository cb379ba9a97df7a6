import Swatch.Proofs.Document.Single
import Swatch.Proofs.Form.Alpha
import Swatch.Proofs.Literal.OklchRoundTrip
/-!
Written `oklch` functions, and the numbers that they show.

A lightness and a chroma are not negative and a hue lies in the full turn, so the rounded numbers
have no sign and no exponent.  What is left out of them are zeros behind the point, which change no
number; the whole part stays as it is, so that ten does not become one.

* `Bytes.exists_of_clamped`: the channels of a clamped colour are bytes if they are integers.
* `Oklch.exists_slashTail`: the alpha is written behind a slash if it is below one.
* `Oklch.write_readable`: what is written is one token, which is read, and shows the rounded
  numbers.
-/

namespace Swatch

open Binary64 Decimal Parts

/-! ### Clamped integers -/

/-- The channels of a clamped colour are bytes if they are integers. -/
lemma Bytes.exists_of_clamped {s c : Sample} (hc : s.clamped = .ok c)
    (hint : ∀ x ∈ [c.red, c.green, c.blue], ∃ n : ℤ, x.value = n) :
    ∃ b : Bytes, c = b.sample c.alpha := by
  obtain ⟨⟨hred, hgreen, hblue⟩, rfl⟩ := Sample.clamped_eq_ok_iff.mp hc
  obtain ⟨r, hr⟩ := hint _ List.mem_cons_self
  obtain ⟨g, hg⟩ := hint _ (List.mem_cons_of_mem _ List.mem_cons_self)
  obtain ⟨b, hb⟩ := hint _ (List.mem_cons_of_mem _ (List.mem_cons_of_mem _ List.mem_cons_self))
  obtain ⟨hrmem, hr⟩ := clamp_eq_ofInt hred hr
  obtain ⟨hgmem, hg⟩ := clamp_eq_ofInt hgreen hg
  obtain ⟨hbmem, hb⟩ := clamp_eq_ofInt hblue hb
  refine ⟨⟨r, g, b, hrmem, hgmem, hbmem⟩, ?_⟩
  rw [hr, hg, hb]
  rfl

/-! ### What is written -/

namespace Oklch

/-- The alpha is written behind a slash if it is below one, and read again. -/
lemma exists_slashTail {s : Sample} (hs : ∀ a ∈ s.alpha, ¬ a < 0) :
    ∃ (alpha : Option Text) (a : Option Binary64), alphaPart s = .ok (slashTail alpha) ∧
      (∀ t ∈ alpha, IsPercentage t) ∧ Swatch.readAlpha alpha = .ok a ∧
      (alpha ≠ none ↔ ∃ a ∈ s.alpha, a < 1) := by
  by_cases htranslucent : ∃ a ∈ s.alpha, a < 1
  · obtain ⟨a, ha, hlt⟩ := htranslucent
    have hnan : a ≠ .nan := by
      rintro rfl
      exact absurd hlt (by decide)
    obtain ⟨n, -, -, -, hn⟩ :=
      Binary64.exists_hundredths (nonneg_of_not_lt hnan (hs a ha)) hlt
    obtain ⟨x, -, -, htrimmed, -, hx⟩ := exists_readAlpha_hundredthsText n
    refine ⟨some (Text.withoutLeadingZero (hundredthsText n)), some x, alphaPart_eq ha hlt hn,
      fun t ht => ?_, hx, iff_of_true (Option.some_ne_none _) ⟨a, ha, hlt⟩⟩
    rw [← Option.some.inj ht]
    exact .plain htrimmed.isDecimal
  · refine ⟨none, none, ?_, by simp, rfl, iff_of_false (by simp) htranslucent⟩
    rw [alphaPart]
    cases ha : s.alpha with
    | none => rfl
    | some a => exact if_neg fun hlt => htranslucent ⟨a, ha, hlt⟩

/-- **An `oklch` function is readable**: the function of a clamped colour with integer channels, and
an alpha that is not negative if there is one, is one token.  Its components are a lightness, a
chroma and a hue, and an alpha just if that of the colour is below one, and a colour is read of
them.  The three numbers have no sign, and are those that the coordinates are rounded to.  The
chroma has no point and no zero of a fraction at its end, and the hue is at most a full turn. -/
theorem write_readable [Elementary] [Elementary.IsAccurate] {s c : Sample} (hc : s.clamped = .ok c)
    (hint : ∀ x ∈ [c.red, c.green, c.blue], ∃ n : ℤ, x.value = n) (ha : ∀ a ∈ c.alpha, ¬ a < 0) :
    ∃ (lch : Oklch) (text lightness chroma hue : Text) (alpha : Option Text) (read : Sample),
      ofSample c = .ok lch ∧ write c true = .ok text ∧
      text = "oklch(".toList ++ lightness ++ "% ".toList ++ chroma ++ " ".toList ++ hue
        ++ slashTail alpha ++ ")".toList ∧
      Token.scan text = [⟨⟨.oklch, text⟩, 0⟩] ∧
      Token.ofWhole? text = some ⟨⟨.oklch, text⟩, 0⟩ ∧
      components? text = some (⟨lightness, chroma, hue, alpha⟩, []) ∧
      (Literal.mk .oklch text).sample = .ok (some read) ∧
      (∃ (rounded : Text) (x : ℚ), (lch.lightness * 100).fixedText 2 = .ok rounded ∧
        Denotes rounded x ∧ Denotes lightness x) ∧
      (∃ (rounded : Text) (x : ℚ), lch.chroma.fixedText 4 = .ok rounded ∧
        Denotes rounded x ∧ Denotes chroma x) ∧
      (∃ (rounded : Text) (x : ℚ), lch.hue.fixedText 2 = .ok rounded ∧
        Denotes rounded x ∧ Denotes hue x ∧ 0 ≤ x ∧ x ≤ 360) ∧
      IsTrimmed chroma ∧ (alpha ≠ none ↔ ∃ a ∈ c.alpha, a < 1) := by
  obtain ⟨b, hb⟩ := Bytes.exists_of_clamped hc hint
  obtain ⟨light, ⟨hr, hg, hblue⟩, -, hlch, hlightness, hchroma, hhue⟩ := b.exists_oklch
  obtain ⟨lightness, chroma, hue, x, p, hunits, hl, hch, hh, hrounding⟩ :=
    exists_hasUnits hlightness hchroma hhue
  obtain ⟨w, n, -, hn, hnear⟩ := hrounding.exists_toBytes hr hg hblue
  obtain ⟨alpha, a, hpart, hpercentage, hread, hiff⟩ := exists_slashTail ha
  have hsample : ofSample c = .ok light.toXyz.toOklab.toOklch := by
    rw [← hlch, hb]
    exact ofSample_withoutAlpha (b.sample c.alpha)
  have hl' := shows_dropEnd lightness
  have hch' := shows_trimFraction 4 chroma
  have hh' := shows_dropEnd hue
  have hfunction : Form.oklch.IsFunction _ (textWith _ _ _ alpha) :=
    isFunction_textWith hl'.isDecimal hch'.isDecimal hh'.isDecimal hpercentage
  have hliteral := hfunction.isLiteral []
  have hfull : (hue : ℚ) / 10 ^ 2 ≤ 360 := by
    rw [div_le_iff₀ (by norm_num)]
    exact_mod_cast hunits.hue_le
  refine ⟨_, textWith _ _ _ alpha, _, _, _, alpha, _, hsample, hunits.write_eq hsample hpart, ?_,
    Token.scan_of_isLiteral hliteral, Token.ofWhole?_of_isLiteral hliteral, ?_,
    sample_textWith hl'.isDecimal hch'.isDecimal hh'.isDecimal hpercentage hl hch hh hread hn
      fun x => isFinite_ofInt (hnear x).1,
    ⟨_, _, hunits.lightness_eq, denotes_pointText 2 lightness, hl'.denotes⟩,
    ⟨_, _, hunits.chroma_eq, denotes_pointText 4 chroma, hch'.denotes⟩,
    ⟨_, _, hunits.hue_eq, denotes_pointText 2 hue, hh'.denotes, hh'.denotes.nonneg, hfull⟩,
    isTrimmed_trimFraction 4 chroma, hiff⟩
  · have hname : "oklch(".toList = "oklch".toList ++ ['('] := rfl
    have hpercent : "% ".toList = ['%', ' '] := rfl
    simp [textWith, hname, hpercent]
  · have hfound := components?_append hfunction []
    rwa [List.append_nil] at hfound

/-- A translucent red is written with its alpha. -/
theorem write_readable_translucentRed :
    let c : Sample := ⟨ofInt 255, ofInt 0, ofInt 0, some 0.5⟩
    (c.clamped = .ok c ∧ (∀ x ∈ [c.red, c.green, c.blue], ∃ n : ℤ, x.value = n) ∧
        ∀ a ∈ c.alpha, ¬ a < 0) ∧
      ∃ (text lightness chroma hue alpha : Text) (read : Sample), write c true = .ok text ∧
        text = "oklch(".toList ++ lightness ++ "% ".toList ++ chroma ++ " ".toList ++ hue
          ++ " / ".toList ++ alpha ++ ")".toList ∧
        Token.ofWhole? text = some ⟨⟨.oklch, text⟩, 0⟩ ∧
        (Literal.mk .oklch text).sample = .ok (some read) ∧ IsTrimmed chroma := by
  intro c
  have hc : c.clamped = .ok c :=
    Sample.clamped_integers (by norm_num) (by norm_num) (by norm_num) (some 0.5)
  have hint : ∀ x ∈ [c.red, c.green, c.blue], ∃ n : ℤ, x.value = n := by
    have hvalue (n : ℤ) (hn : n.natAbs ≤ 2 ^ (53 : Nat)) : ∃ m : ℤ, (ofInt n).value = m :=
      ⟨n, (value_ofInt hn).2⟩
    rw [List.forall_mem_cons, List.forall_mem_cons, List.forall_mem_singleton]
    exact ⟨hvalue 255 (by norm_num), hvalue 0 (by norm_num), hvalue 0 (by norm_num)⟩
  have halpha : ∀ a ∈ c.alpha, ¬ a < 0 := by
    intro a ha
    rw [← Option.some.inj ha, lt_iff value_half.1 (isFinite_ofNat (by norm_num)), value_half.2,
      value_ofNat (by norm_num)]
    norm_num
  have hlt : (0.5 : Binary64) < 1 := by
    rw [lt_iff value_half.1 (isFinite_ofNat (by norm_num)), value_half.2,
      value_ofNat (by norm_num)]
    norm_num
  obtain ⟨lch, text, lightness, chroma, hue, alpha, read, -, hwrite, htext, -, hwhole, -, hread,
    -, -, -, htrimmed, hiff⟩ := write_readable hc hint halpha
  obtain ⟨t, rfl⟩ := Option.ne_none_iff_exists'.mp (hiff.mpr ⟨_, rfl, hlt⟩)
  refine ⟨⟨hc, hint, halpha⟩, text, lightness, chroma, hue, t, read, hwrite, ?_, hwhole, hread,
    htrimmed⟩
  rw [htext, slashTail]
  simp

end Oklch

end Swatch
