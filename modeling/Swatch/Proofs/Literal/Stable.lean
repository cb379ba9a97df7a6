import Swatch.Proofs.Literal.Converted
import Swatch.Proofs.Literal.HslRoundTrip
/-!
Literals that a second conversion to the same form leaves alone.

The channels of a colour are written in full in hexadecimal digits and in `rgb` functions, and an
alpha is read as the number that it shows, so that it shows the same number again.  The exception is
an alpha that is below one and shown as one: read again it is one, and then it is not shown.

* `Literal.IsStable`: what a literal converts to is left alone by a second conversion.
* `Layout.alphaText_reread`, `Hex.alphaText_reread`: what an alpha shows when it is read again.
* `Bytes.sample_rgbText`, `Bytes.sample_hexDigits`, `Bytes.IsNearest.exists_bytes`: bytes that are
  written are read again.
* `IsLiteral.isStable_iff`: in hexadecimal digits and `rgb` functions that alpha is the only
  exception.
* `IsLiteral.not_isAlmostOpaque_of_isStable`: it is one in `hsl` functions too, where others come
  with the hue.
-/

namespace Swatch

open Binary64 Decimal Parts

/-! ### A second conversion -/

/-- What a literal converts to is left alone by a second conversion to the same form. -/
def Literal.IsStable [Elementary] (l : Literal) (form : Form) : Prop :=
  ((l.converted form).convertWith ⟨form.name, true⟩).value = (l.converted form).text

namespace Literal

variable [Elementary] {l : Literal} {form : Form}

/-- What is no colour is left alone both times. -/
lemma isStable_of_ne (h : ∀ text, l.outcome form true ≠ .ok (some text)) : l.IsStable form := by
  rw [IsStable, converted_of_ne h]
  exact value_convertWith_of_ne h

lemma isStable_iff_of_outcome {text text' : Text} (h : l.outcome form true = .ok (some text))
    (h' : (Literal.mk form text).outcome form true = .ok (some text')) :
    l.IsStable form ↔ text' = text := by
  rw [IsStable, converted_of_outcome h, value_convertWith_name, h']

end Literal

/-! ### Alphas that are read again -/

/-- The number of a rounded one is not below one. -/
lemma Binary64.IsRounded.not_lt_one {x : Binary64} (h : IsRounded 1 x) : ¬ x < 1 := by
  obtain ⟨hfinite, hvalue⟩ := h.exact representable_one
  rw [lt_iff hfinite (isFinite_ofNat (by norm_num)), hvalue, value_ofNat (by norm_num)]
  norm_num

/-- What is near to a number well below one is below one. -/
lemma Binary64.Near.lt_one {x : Binary64} {q : ℚ} {k : Nat} (h : Near k q x)
    (hk : k ≤ 2 ^ (20 : Nat)) (hq : q + 1 / 2 ^ 20 < 1) : x < 1 := by
  have hnear := (abs_le.mp (h.abs_sub_le_of_le hk)).2
  rw [lt_iff h.isFinite (isFinite_ofNat (by norm_num)), value_ofNat (by norm_num)]
  push_cast
  linarith

/-- Only one integer is nearest to a number that is less than half away from it. -/
lemma eq_of_nearest {m k : ℤ} {q : ℚ} (hlow : (m : ℚ) - 1 / 2 ≤ q) (hhigh : q < m + 1 / 2)
    (hclose : |q - k| < 1 / 2) : m = k := by
  obtain ⟨hbelow, habove⟩ := abs_lt.mp hclose
  have hmk : m < k + 1 := by
    have hcast : (m : ℚ) < k + 1 := by linarith
    exact_mod_cast hcast
  have hkm : k < m + 1 := by
    have hcast : (k : ℚ) < m + 1 := by linarith
    exact_mod_cast hcast
  omega

/-- An alpha that is read again shows what it showed, unless that was one. -/
lemma Layout.alphaText_reread {n : Option Nat} (hn : ∀ k ∈ n, k ≤ 100) {s : Sample}
    (ha : Swatch.readAlpha (n.map hundredthsText) = .ok s.alpha) (h0 : s.AlphaNonneg) :
    Layout.alphaText s = .ok (if n = some 100 then none else n.map hundredthsText) := by
  cases n with
  | none =>
      have hnone : s.alpha = none := (Except.ok.inj ha).symm
      rw [alphaText, hnone]
      rfl
  | some k =>
      have hk := hn k rfl
      rw [Option.map_some, Swatch.readAlpha,
        endsWith_percent_of_isDecimal (isDecimal_hundredthsText k)] at ha
      obtain ⟨x, hx, hsome⟩ := map_eq_ok.mp ha
      obtain ⟨x', hx', hround⟩ :=
        exists_readNumber_hundredthsText k
      obtain rfl : x' = x := Except.ok.inj (hx'.symm.trans hx)
      rcases hk.lt_or_eq with hlt | rfl
      · -- the nearest number of hundredths is the one that was read
        have hk' : (k : ℚ) ≤ 99 := by exact_mod_cast Nat.le_of_lt_succ hlt
        have hle : |(k : ℚ) / 100| ≤ 512 := by
          rw [abs_of_nonneg (by positivity)]
          linarith
        have hnear := hround.near (k := 0) (by simp) (by norm_num) hle
        have hclose := abs_le.mp (hnear.abs_sub_le_of_le (by norm_num))
        have hone : x' < 1 := hnear.lt_one (by norm_num) (by linarith)
        obtain ⟨m, -, hlow, hhigh, htext⟩ :=
          Sample.exists_hundredths hsome.symm (h0 x' hsome.symm) hone
        have hpart : |x'.value * 100 - (k : ℤ)| < 1 / 2 := by
          rw [abs_lt, Int.cast_natCast]
          constructor <;> linarith [hclose.1, hclose.2]
        obtain rfl : m = k := Int.ofNat_inj.mp (eq_of_nearest hlow hhigh hpart)
        rw [htext, if_neg (by simpa using hlt.ne)]
        rfl
      · have hhundred : ((100 : Nat) : ℚ) / 100 = 1 := by norm_num
        rw [hhundred] at hround
        rw [alphaText, ← hsome, if_pos rfl]
        exact if_neg hround.not_lt_one

namespace Hex

/-- A byte is read as its value. -/
lemma hexValue_byteText : ∀ n < 256, hexValue (byteText (n : Nat)) = n := by
  have hpairs : ∀ a < 16, ∀ b < 16,
      hexValue (byteText ((16 * a + b : Nat) : ℤ)) = 16 * a + b := by decide
  intro n hn
  have h := hpairs (n / 16) (by omega) (n % 16) (by omega)
  rwa [Nat.div_add_mod] at h

lemma cast_hexValue_byteText {k : ℤ} (hk : 0 ≤ k ∧ k ≤ 255) :
    (hexValue (byteText k) : ℤ) = k := by
  obtain ⟨k, rfl⟩ := Int.eq_ofNat_of_zero_le hk.1
  exact congrArg Nat.cast (hexValue_byteText k (by omega))

/-- A byte other than the last is near to its part of 255, which is below one. -/
lemma near_byte {k : ℤ} (hk : 0 ≤ k ∧ k ≤ 254) :
    Near 1 ((k : ℚ) / (255 : Nat)) (ofInt k / 255) ∧ ofInt k / 255 < 1 := by
  obtain ⟨hfinite, hvalue⟩ := value_ofInt (n := k) (by omega)
  have hk0 : (0 : ℚ) ≤ k := by exact_mod_cast hk.1
  have hk1 : (k : ℚ) ≤ 254 := by exact_mod_cast hk.2
  have hle : |(k : ℚ)| ≤ 512 := by
    rw [abs_of_nonneg hk0]
    linarith
  have hnear := (near_of_value hfinite hvalue).div_ofNat (n := 255) (by norm_num) (by norm_num)
    (by norm_num) hle
  exact ⟨hnear, hnear.lt_one (by norm_num) (by push_cast; linarith)⟩

/-- The last byte is one. -/
lemma not_lt_one_byte : ¬ ofInt 255 / 255 < 1 := by
  obtain ⟨hfinite, hvalue⟩ := value_ofInt (n := 255) (by omega)
  have hbyte : ((255 : ℤ) : ℚ) / (255 : Binary64).value = 1 := by
    rw [value_ofNat (by norm_num)]
    norm_num
  have hround := isRounded_div hfinite (isFinite_ofNat (n := 255) (by norm_num))
    (by rw [value_ofNat (by norm_num)]; norm_num)
  rw [hvalue, hbyte] at hround
  exact hround.not_lt_one

/-- The alpha of a byte shows the byte, unless it is one. -/
lemma alphaText_byte {k : ℤ} (hk : 0 ≤ k ∧ k ≤ 255) {s : Sample}
    (ha : s.alpha = some (ofInt k / 255)) (h0 : s.AlphaNonneg) :
    alphaText s = .ok (if k = 255 then [] else byteText k) := by
  rcases hk.2.lt_or_eq with hlt | rfl
  · obtain ⟨hnear, hone⟩ := near_byte (k := k) (by omega)
    have hk0 : (0 : ℚ) ≤ k := by exact_mod_cast hk.1
    have hk' : (k : ℚ) ≤ 255 := by exact_mod_cast hk.2
    -- multiplied again it is near to the byte that was read
    have hpart : |(k : ℚ) / (255 : Nat)| ≤ (1 : Nat) := by
      rw [abs_of_nonneg (by positivity), div_le_iff₀ (by norm_num)]
      push_cast
      linarith
    have hbyte : |((255 : Nat) : ℚ)| ≤ (255 : Nat) := (abs_of_nonneg (by positivity)).le
    have hproduct := hnear.mul (near_ofNat (n := 255) (by norm_num)) hpart hbyte (by norm_num)
      (by norm_num) (by norm_num) (by norm_num)
    rw [div_mul_cancel₀ _ (by norm_num)] at hproduct
    have hhalf := (hproduct.abs_sub_le_of_le (by norm_num)).trans_lt
      (by norm_num : (1 : ℚ) / 2 ^ 20 < 1 / 2)
    obtain ⟨m, -, hlow, hhigh, htext⟩ := exists_alphaByte ha (h0 _ ha) hone
    obtain rfl : m = k := eq_of_nearest hlow hhigh hhalf
    rw [htext, if_neg hlt.ne]
  · rw [alphaText, ha, if_pos rfl]
    exact if_neg not_lt_one_byte

/-- An alpha that is read again shows what it showed, unless that was one. -/
lemma alphaText_reread {n : Option ℤ} (hn : ∀ k ∈ n, 0 ≤ k ∧ k ≤ 255) {s : Sample}
    (ha : s.alpha = n.map fun k => ofInt k / 255) (h0 : s.AlphaNonneg) :
    alphaText s = .ok (((if n = some 255 then none else n).map byteText).getD []) := by
  cases n with
  | none =>
      have hnone : s.alpha = none := ha
      rw [alphaText, hnone]
      rfl
  | some k =>
      rw [alphaText_byte (hn k rfl) ha h0]
      simp only [Option.some.injEq]
      split_ifs <;> rfl

end Hex

/-! ### What is read again -/

/-- A hexadecimal digit in lower case stays what it is. -/
lemma lowerLetter_of_isLowerHexDigit {c : Char} (h : isLowerHexDigit c = true) :
    lowerLetter c = c := by
  have hl := toNat_toLower c
  have hne : c ≠ kelvinSign := by
    rintro rfl
    exact absurd h (by decide)
  simp only [isLowerHexDigit, Bool.or_eq_true, Bool.and_eq_true, decide_eq_true_eq, isDigit_iff,
    Char.le_def, UInt32.le_iff_toNat_le] at h
  have ha : ('a' : Char).val.toNat = 97 := rfl
  have hc : c.val.toNat = c.toNat := rfl
  rw [lowerLetter, if_neg hne, ← Char.toNat_inj]
  split at hl <;> omega

namespace Bytes

variable (c : Bytes)

/-- An `rgb` function is read as the bytes that it was written from. -/
lemma sample_rgbText [Elementary] {n : Option Nat} {a : Option Binary64}
    (ha : Swatch.readAlpha (n.map hundredthsText) = .ok a) :
    (Literal.mk .rgb (c.rgbText (n.map hundredthsText))).sample = .ok (some (c.sample a)) := by
  have hbyte {n : ℤ} (hn : 0 ≤ n ∧ n ≤ 255) : n.toNat ≤ 255 ∧ ((n.toNat : ℕ) : ℤ) = n :=
    ⟨by omega, Int.toNat_of_nonneg hn.1⟩
  have hsample := Rgb.sample_functionText (hbyte c.red_mem).1 (hbyte c.green_mem).1
    (hbyte c.blue_mem).1 ha
  rw [(hbyte c.red_mem).2, (hbyte c.green_mem).2, (hbyte c.blue_mem).2] at hsample
  exact hsample

lemma components?_hexDigits {n : Option ℤ} (hn : ∀ k ∈ n, 0 ≤ k ∧ k ≤ 255) :
    Hex.components? (c.hexDigits n) = some ⟨Hex.byteText c.red, Hex.byteText c.green,
      Hex.byteText c.blue, n.map Hex.byteText⟩ := by
  obtain ⟨r, r', hred⟩ := List.length_eq_two.mp (Hex.byteText_spec c.red_mem).1
  obtain ⟨g, g', hgreen⟩ := List.length_eq_two.mp (Hex.byteText_spec c.green_mem).1
  obtain ⟨b, b', hblue⟩ := List.length_eq_two.mp (Hex.byteText_spec c.blue_mem).1
  rw [hexDigits, hred, hgreen, hblue]
  cases n with
  | none => rfl
  | some k =>
      obtain ⟨a, a', halpha⟩ := List.length_eq_two.mp (Hex.byteText_spec (hn k rfl)).1
      rw [Option.map_some, halpha]
      rfl

/-- Hexadecimal digits are read as the bytes that they were written from. -/
lemma sample_hexDigits [Elementary] {n : Option ℤ} (hn : ∀ k ∈ n, 0 ≤ k ∧ k ≤ 255) :
    (Literal.mk .hex ('#' :: c.hexDigits n)).sample
      = .ok (some (c.sample (n.map fun k => ofInt k / 255))) := by
  have hlower := c.isLowerHexDigit_hexDigits hn
  have hdigits : ∀ d ∈ c.hexDigits n, isHexDigit d = true :=
    fun d hd => isHexDigit_of_isLowerHexDigit (hlower d hd)
  have hself : Text.lower (c.hexDigits n) = c.hexDigits n :=
    Text.lower_eq_self fun d hd => lowerLetter_of_isLowerHexDigit (hlower d hd)
  have halpha : ((n.map Hex.byteText).map fun a => ofInt (hexValue a : ℤ) / 255)
      = n.map fun k => ofInt k / 255 := by
    cases n with
    | none => rfl
    | some k => simp only [Option.map_some, Hex.cast_hexValue_byteText (hn k rfl)]
  rw [Literal.sample_eq, readText_hex hdigits, hself, Form.read,
    Hex.read_eq hdigits (c.components?_hexDigits hn), Hex.sampleOf]
  simp only [Hex.cast_hexValue_byteText c.red_mem, Hex.cast_hexValue_byteText c.green_mem,
    Hex.cast_hexValue_byteText c.blue_mem, halpha]
  rfl

end Bytes

/-- Equal bytes are written with a hue of zero. -/
lemma Bytes.IsNearest.hue_of_grey {c : Bytes} {hue saturation lightness : Nat}
    (h : c.IsNearest hue saturation lightness) (hred : c.red = c.green)
    (hgreen : c.green = c.blue) : hue = 0 := by
  have hgrey : c.hsl.hue = 0 := by
    refine ExactHsl.hueOfChannels_of_grey ?_
    rw [hred, hgreen, ExactHsl.largest, ExactHsl.smallest]
    simp
  have hnear := (abs_le.mp h.hue_near).2
  rw [hgrey] at hnear
  have hlt : (hue : ℚ) < 1 := by linarith
  exact Nat.lt_one_iff.mp (by exact_mod_cast hlt)

/-- What bytes are written as in `hsl` is read as bytes again, and these are equal for a full
turn. -/
lemma Bytes.IsNearest.exists_bytes [Elementary] {c : Bytes} {hue saturation lightness : Nat}
    (h : c.IsNearest hue saturation lightness) {n : Option Nat} {a : Option Binary64}
    (ha : Swatch.readAlpha (n.map hundredthsText) = .ok a) :
    ∃ (s : Sample) (c' : Bytes),
      (Literal.mk .hsl (functionText "hsl".toList (digitsOf hue) (tenthsText saturation ++ ['%'])
        (tenthsText lightness ++ ['%']) (n.map hundredthsText))).sample = .ok (some s) ∧
      s.clamped = .ok (c'.sample a) ∧ (hue = 360 → c'.red = c'.green ∧ c'.green = c'.blue) := by
  obtain ⟨m, hsample, hfinite, -, hturn⟩ :=
    Hsl.exists_sample h.hue_le h.saturation_le h.lightness_le ha
  refine ⟨_, ⟨_, _, _, clampChannel_mem (m .red), clampChannel_mem (m .green),
    clampChannel_mem (m .blue)⟩, hsample,
    Sample.clamped_ofInt (hfinite .red) (hfinite .green) (hfinite .blue) a, fun hfull => ?_⟩
  obtain ⟨hred, hgreen⟩ := hturn hfull
  exact ⟨congrArg clampChannel hred, congrArg clampChannel hgreen⟩

/-! ### Stable literals -/

/-- A function with an alpha has another name than one without. -/
lemma functionText_ne (word first second third first' second' third' alpha : Text) :
    functionText word first second third none
      ≠ functionText word first' second' third' (some alpha) := by
  intro h
  simp only [functionText, functionName, List.append_assoc] at h
  exact absurd (List.cons.inj (List.append_cancel_left h)).1 (by decide)

/-- The first component of a function is what stands between its parenthesis and its first comma. -/
lemma functionText_first {word first second third first' second' third' : Text}
    {alpha alpha' : Option Text} (hword : '(' ∉ word) (hfirst : ',' ∉ first)
    (hfirst' : ',' ∉ first') (h : functionText word first second third alpha
      = functionText word first' second' third' alpha') : first = first' := by
  have hname (a : Option Text) : '(' ∉ functionName word a := by
    cases a <;> simp [functionName, hword]
  obtain ⟨-, h⟩ := Text.append_cons_inj (hname alpha) (hname alpha') h
  exact (Text.append_cons_inj hfirst hfirst' h).1

namespace IsLiteral

variable [Elementary] {rest : Text} {l : Literal}

/-- What a literal converts to is what its bytes and its alpha are written as, and what that
converts to is what is read and written again. -/
lemma isStable_iff_of_write (hl : IsLiteral rest l.form l.text) (form : Form) {s s' : Sample}
    (hs : l.sample = .ok (some s)) {c c' : Bytes} (hc : s.clamped = .ok (c.sample s.alpha))
    {text : Text} (hwrite : form.write (c.sample s.alpha) true = .ok text) {a : Option Binary64}
    (hs' : (Literal.mk form text).sample = .ok (some s'))
    (hc' : s'.clamped = .ok (c'.sample a)) :
    (c'.sample a).AlphaNonneg ∧ ∀ text', form.write (c'.sample a) true = .ok text' →
      (l.IsStable form ↔ text' = text) := by
  have houtcome : l.outcome form true = .ok (some text) := by
    rw [Literal.outcome_of_sample hs hc]
    exact map_some_eq_ok.mpr hwrite
  have hl' : IsLiteral [] (Literal.mk form text).form (Literal.mk form text).text :=
    hl.isLiteral_of_outcome houtcome
  refine ⟨?_, fun text' hwrite' => ?_⟩
  · rw [Sample.AlphaNonneg, (Sample.inGamut_of_clamped hc').2]
    exact (hl'.sample_spec hs').2
  · refine Literal.isStable_iff_of_outcome houtcome ?_
    rw [Literal.outcome_of_sample hs' hc']
    exact map_some_eq_ok.mpr hwrite'

lemma isStable_rgb_iff (hl : IsLiteral rest l.form l.text) {s : Sample}
    (hs : l.sample = .ok (some s)) : l.IsStable .rgb ↔ ¬ s.IsAlmostOpaque .rgb := by
  obtain ⟨c, hc, hnonneg⟩ := hl.exists_bytes hs
  obtain ⟨n, hn, -, hone, htext⟩ := Sample.exists_alphaText_eq hnonneg
  obtain ⟨a, ha⟩ := exists_readAlpha n
  obtain ⟨hnonneg', hiff⟩ :=
    hl.isStable_iff_of_write .rgb hs hc (c.write_rgb htext) (c.sample_rgbText ha) c.clamped_sample
  have htext' := Layout.alphaText_reread hn (s := c.sample a) ha hnonneg'
  rw [hiff _ (c.write_rgb htext')]
  rw [c.alpha_sample] at hone
  have hone' : n = some 100 ↔ s.IsAlmostOpaque .rgb := by
    rw [Sample.IsAlmostOpaque]
    exact hone
  rw [← hone']
  by_cases hhundred : n = some 100
  · rw [if_pos hhundred, hhundred]
    exact iff_of_false (functionText_ne _ _ _ _ _ _ _ _) (not_not_intro rfl)
  · rw [if_neg hhundred]
    exact iff_of_true rfl hhundred

lemma isStable_hex_iff (hl : IsLiteral rest l.form l.text) {s : Sample}
    (hs : l.sample = .ok (some s)) : l.IsStable .hex ↔ ¬ s.IsAlmostOpaque .hex := by
  obtain ⟨c, hc, hnonneg⟩ := hl.exists_bytes hs
  obtain ⟨n, hn, -, hone, htext⟩ := Hex.exists_alphaDigits hnonneg
  obtain ⟨hnonneg', hiff⟩ :=
    hl.isStable_iff_of_write .hex hs hc (c.write_hex htext) (c.sample_hexDigits hn) c.clamped_sample
  have htext' := Hex.alphaText_reread hn (c.alpha_sample (n.map fun k => ofInt k / 255)) hnonneg'
  have hone' : n = some 255 ↔ s.IsAlmostOpaque .hex := by
    rw [Sample.IsAlmostOpaque, c.alpha_sample] at hone
    rw [Sample.IsAlmostOpaque]
    exact hone
  rw [hiff _ (c.write_hex htext'), ← hone']
  by_cases hbyte : n = some 255
  · rw [if_pos hbyte, hbyte]
    refine iff_of_false (fun h => ?_) (not_not_intro rfl)
    have hlength := congrArg List.length h
    rw [List.length_cons, List.length_cons, c.length_hexDigits (by simp),
      c.length_hexDigits (by simp)] at hlength
    exact absurd hlength (by decide)
  · rw [if_neg hbyte]
    exact iff_of_true rfl hbyte

/-- In hexadecimal digits and `rgb` functions a literal is stable just if it does not show an alpha
below one as one. -/
theorem isStable_iff (hl : IsLiteral rest l.form l.text) {form : Form}
    (hform : form = .hex ∨ form = .rgb) : l.IsStable form ↔
      ∀ c, l.sample = .ok (some c) → ¬ c.IsAlmostOpaque form := by
  by_cases hs : ∃ s, l.sample = .ok (some s)
  · obtain ⟨s, hs⟩ := hs
    have hiff : l.IsStable form ↔ ¬ s.IsAlmostOpaque form := by
      rcases hform with rfl | rfl
      · exact hl.isStable_hex_iff hs
      · exact hl.isStable_rgb_iff hs
    rw [hiff]
    refine ⟨fun h c hc => ?_, fun h => h s hs⟩
    rwa [← Option.some.inj (Except.ok.inj (hs.symm.trans hc))]
  · refine iff_of_true (Literal.isStable_of_ne fun text htext => ?_) fun c hc => absurd ⟨c, hc⟩ hs
    exact hs (Literal.exists_sample htext)

/-- An `hsl` function is not stable if its alpha is shown as one, or its hue as a full turn. -/
theorem not_isAlmostOpaque_of_isStable (hl : IsLiteral rest l.form l.text) {s : Sample}
    (hs : l.sample = .ok (some s)) {c : Bytes} (hc : s.clamped = .ok (c.sample s.alpha))
    (hstable : l.IsStable .hsl) : ¬ s.IsAlmostOpaque .hsl ∧
      ¬ (c.green < c.blue ∧ 120 * (c.blue - c.green) < c.red - c.green) := by
  have hnonneg : (c.sample s.alpha).AlphaNonneg := by
    rw [Sample.AlphaNonneg, c.alpha_sample]
    exact (hl.sample_spec hs).2
  obtain ⟨n, hn, -, hone, htext⟩ := Sample.exists_alphaText_eq hnonneg
  rw [c.alpha_sample] at hone
  obtain ⟨a, ha⟩ := exists_readAlpha n
  obtain ⟨hue, saturation, lightness, hnear, hwrite⟩ := c.exists_hsl htext
  obtain ⟨s', c', hsample, hc', hturn⟩ := hnear.exists_bytes ha
  obtain ⟨hnonneg', hiff⟩ := hl.isStable_iff_of_write .hsl hs hc hwrite hsample hc'
  have htext' := Layout.alphaText_reread hn (s := c'.sample a) ha hnonneg'
  obtain ⟨hue', saturation', lightness', hnear', hwrite'⟩ := c'.exists_hsl htext'
  have hsame := (hiff _ hwrite').mp hstable
  constructor
  · intro halmost
    have hhundred : n = some 100 := by
      rw [Sample.IsAlmostOpaque] at halmost
      exact hone.mpr halmost
    rw [if_pos hhundred, hhundred] at hsame
    exact functionText_ne _ _ _ _ _ _ _ _ hsame
  · -- the full turn is read as a grey, which is written with another hue
    rintro ⟨hgb, hspread⟩
    obtain rfl := hnear.eq_fullTurn hgb hspread
    obtain ⟨hred, hgreen⟩ := hturn rfl
    have hzero : hue' = 0 := hnear'.hue_of_grey hred hgreen
    have hcomma (k : Nat) : ',' ∉ digitsOf k := (isRun_digitsOf k).notMem (by decide)
    have hfirst := functionText_first (by decide) (hcomma _) (hcomma _) hsame
    rw [hzero] at hfirst
    exact absurd hfirst (by decide)

end IsLiteral

end Swatch
