import Swatch.Proofs.Color.HslError
import Swatch.Proofs.Decimal.Shortest
/-!
What colours are written as.

* `functionText`: a function of three components between commas, with an `a` behind its word and a
  fourth component if there is an alpha.
* `Hex.IsWritten`, `Rgb.IsWritten`, `Hsl.IsWritten`: how the colours of a form are written, with an
  alpha or without one.
* `Sample.exists_alphaText_eq`: an alpha is written in hundredths, and only if it is below one.
* `Bytes.exists_hsl`: hue, saturation and lightness are written as the nearest numbers of degrees
  and tenths.
* `Bytes.exists_isWritten`: a colour of byte channels is written as its form is.
-/

namespace Swatch

open Binary64 Decimal

/-! ### How the forms are written -/

/-- The name of a function: its word, with an `a` if there is an alpha. -/
def functionName (word : Text) : Option Text → Text
  | none => word
  | some _ => word ++ ['a']

/-- The alpha behind a comma, if there is one. -/
def alphaTail : Option Text → Text
  | none => []
  | some alpha => ", ".toList ++ alpha

/-- A function of three components, and an alpha that may follow them. -/
def functionText (word first second third : Text) (alpha : Option Text) : Text :=
  functionName word alpha ++ '(' :: (first ++ (", ".toList ++ (second ++ (", ".toList ++
    (third ++ (alphaTail alpha ++ [')']))))))

/-- Whether a character is a hexadecimal digit in lower case. -/
def isLowerHexDigit (c : Char) : Bool := c.isDigit || ('a' ≤ c && c ≤ 'f')

/-- A number sign with six digits, or eight if there is an alpha. -/
inductive Hex.IsWritten : Bool → Text → Prop where
  | intro {translucent : Bool} {digits : Text}
      (hlength : digits.length = if translucent then 8 else 6)
      (hdigits : ∀ c ∈ digits, isLowerHexDigit c) : IsWritten translucent ('#' :: digits)

/-- Three integers up to 255, and an alpha in hundredths if there is one. -/
inductive Rgb.IsWritten : Bool → Text → Prop where
  | intro {red green blue : Nat} {alpha : Option Nat} (hred : red ≤ 255) (hgreen : green ≤ 255)
      (hblue : blue ≤ 255) (halpha : ∀ n ∈ alpha, n ≤ 100) :
      IsWritten alpha.isSome (functionText "rgb".toList (digitsOf red) (digitsOf green)
        (digitsOf blue) (alpha.map hundredthsText))

/-- An integer up to 360, two percentages in tenths, and an alpha in hundredths if there is one. -/
inductive Hsl.IsWritten : Bool → Text → Prop where
  | intro {hue saturation lightness : Nat} {alpha : Option Nat} (hhue : hue ≤ 360)
      (hsaturation : saturation ≤ 1000) (hlightness : lightness ≤ 1000)
      (halpha : ∀ n ∈ alpha, n ≤ 100) :
      IsWritten alpha.isSome (functionText "hsl".toList (digitsOf hue)
        (tenthsText saturation ++ ['%']) (tenthsText lightness ++ ['%'])
        (alpha.map hundredthsText))

/-- How the colours of a form are written, with an alpha or without one.  Nothing is said of
`oklch`. -/
def Form.IsWritten : Form → Bool → Text → Prop
  | .hex => Hex.IsWritten
  | .rgb => Rgb.IsWritten
  | .hsl => Hsl.IsWritten
  | .oklch => fun _ _ => False

/-! ### Alphas -/

/-- The alpha is below one, but the form writes it as one.  Hexadecimal digits count parts of 255,
and the functions count hundredths. -/
def Sample.IsAlmostOpaque (s : Sample) (form : Form) : Prop :=
  ∃ a ∈ s.alpha, a < 1 ∧ match form with
    | .hex => 509 / 2 ≤ (a * 255).value
    | _ => 199 / 200 ≤ a.value

/-- A rounded alpha is shown without zeros at its end. -/
lemma Layout.alphaText_eq {s : Sample} {a : Binary64} {n : Nat} (ha : s.alpha = some a)
    (hlt : a < 1) (hle : n ≤ 100) (hn : a.fixedText 2 = .ok (scaledText ⟨n, -2⟩)) :
    Layout.alphaText s = .ok (some (hundredthsText n)) := by
  obtain ⟨x, hx, htext⟩ := bind_eq_ok.mp (plainText_hundredths hle)
  rw [Layout.alphaText, ha]
  simp only
  rw [if_pos hlt, hn]
  exact bind_eq_ok.mpr ⟨_, rfl, bind_eq_ok.mpr ⟨x, hx, map_eq_ok.mpr ⟨_, htext, rfl⟩⟩⟩

/-- An alpha below one is rounded to the nearest number of hundredths, a half up. -/
lemma Binary64.exists_hundredths {a : Binary64} (h0 : 0 ≤ a) (hlt : a < 1) : ∃ n : Nat, n ≤ 100 ∧
    (n : ℚ) - 1 / 2 ≤ a.value * 100 ∧ a.value * 100 < n + 1 / 2 ∧
      a.fixedText 2 = .ok (scaledText ⟨n, -2⟩) := by
  have hbetween : Between 0 (1 : Nat) a := by exact_mod_cast between_of_lt_one h0 hlt
  obtain ⟨n, hn, hle, hlow, hhigh⟩ := exists_fixedText_eq hbetween (by norm_num : 2 ≤ 6)
    (by norm_num [maxDigits])
  have hsquare : (10 : ℚ) ^ 2 = 100 := by norm_num
  rw [hsquare] at hlow hhigh
  exact ⟨n, by simpa using hle, by linarith, by linarith, hn⟩

/-- An alpha below one is written as the nearest number of hundredths. -/
lemma Sample.exists_hundredths {s : Sample} {a : Binary64} (ha : s.alpha = some a) (h0 : 0 ≤ a)
    (hlt : a < 1) : ∃ n : Nat, n ≤ 100 ∧ (n : ℚ) - 1 / 2 ≤ a.value * 100 ∧
      a.value * 100 < n + 1 / 2 ∧ Layout.alphaText s = .ok (some (hundredthsText n)) := by
  obtain ⟨n, hle, hlow, hhigh, hn⟩ := Binary64.exists_hundredths h0 hlt
  exact ⟨n, hle, hlow, hhigh, Layout.alphaText_eq ha hlt hle hn⟩

/-- An alpha is written in hundredths, and only if it is below one. -/
lemma Sample.exists_alphaText_eq {s : Sample} (ha : s.AlphaNonneg) :
    ∃ n : Option Nat, (∀ k ∈ n, k ≤ 100) ∧ n.isSome = s.isTranslucent ∧
      (n = some 100 ↔ ∃ a ∈ s.alpha, a < 1 ∧ 199 / 200 ≤ a.value) ∧
      Layout.alphaText s = .ok (n.map hundredthsText) := by
  rw [Sample.isTranslucent]
  cases halpha : s.alpha with
  | none => exact ⟨none, by simp, rfl, by simp, by rw [Layout.alphaText, halpha]; rfl⟩
  | some a =>
      by_cases hlt : a < 1
      · obtain ⟨n, hle, hlow, hhigh, hn⟩ := exists_hundredths halpha (ha a halpha) hlt
        have hone : n = 100 ↔ 199 / 200 ≤ a.value := by
          constructor
          · rintro rfl
            push_cast at hlow
            linarith
          · intro hlarge
            have hlt : 99 < n := by exact_mod_cast (by linarith : (99 : ℚ) < n)
            omega
        exact ⟨some n, by simpa using hle, by simp [hlt], by simp [hlt, hone], hn⟩
      · refine ⟨none, by simp, by simp [hlt], by simp [hlt], ?_⟩
        rw [Layout.alphaText, halpha]
        exact if_neg hlt

/-! ### Functions between commas -/

lemma commas_eq (word first second third : Text) (bare : List Text) (alpha : Option Text) :
    Layout.commas word [first, second, third] bare alpha true
      = functionText word first second third alpha := by
  cases alpha <;> simp [Layout.commas, Layout.joined, List.intercalate, functionText, functionName,
    alphaTail]

/-- An integer that is not negative is its digits. -/
lemma integerText_natCast (n : Nat) : integerText n = digitsOf n := by
  rw [integerText, decide_eq_false (by omega), Int.natAbs_natCast]
  rfl

/-! ### Hexadecimal digits -/

namespace Hex

lemma isLowerHexDigit_digitChar : ∀ d < 16, isLowerHexDigit (Nat.digitChar d) = true := by decide

lemma isLowerHexDigit_of_mem_toDigits {n : Nat} {d : Char} (h : d ∈ Nat.toDigits 16 n) :
    isLowerHexDigit d = true := by
  induction n using Nat.strong_induction_on with
  | _ n ih =>
      rw [Nat.toDigits_eq_if (by norm_num)] at h
      split_ifs at h with hlt
      · rw [List.mem_singleton] at h
        rw [h]
        exact isLowerHexDigit_digitChar n hlt
      · rw [List.mem_append, List.mem_singleton] at h
        rcases h with h | rfl
        · exact ih (n / 16) (by omega) h
        · exact isLowerHexDigit_digitChar _ (Nat.mod_lt n (by norm_num))

/-- A byte has two digits. -/
lemma byteText_spec {n : ℤ} (hn : 0 ≤ n ∧ n ≤ 255) :
    (byteText n).length = 2 ∧ ∀ d ∈ byteText n, isLowerHexDigit d = true := by
  obtain ⟨k, rfl⟩ := Int.eq_ofNat_of_zero_le hn.1
  have hneg : ¬ (k : ℤ) < 0 := by omega
  have hlength : (Nat.toDigits 16 k).length ≤ 2 :=
    (Nat.length_toDigits_le_iff (by norm_num) (by norm_num)).mpr (by omega)
  rw [byteText, if_neg hneg, decide_eq_false hneg, Int.natAbs_natCast, withSign,
    if_neg Bool.false_ne_true, hexPadded]
  simp only [List.length_append, List.length_replicate, List.mem_append, List.mem_replicate]
  refine ⟨by omega, ?_⟩
  rintro d (⟨-, rfl⟩ | hd)
  · decide
  · exact isLowerHexDigit_of_mem_toDigits hd

lemma channelText_ofInt {n : ℤ} (hn : 0 ≤ n ∧ n ≤ 255) :
    channelText (ofInt n) = .ok (byteText n) :=
  map_eq_ok.mpr ⟨n, roundHalfUp_ofInt (by omega), rfl⟩

/-- An alpha below one is written as the nearest byte. -/
lemma exists_alphaByte {s : Sample} {a : Binary64} (ha : s.alpha = some a) (h0 : 0 ≤ a)
    (hlt : a < 1) : ∃ n : ℤ, (0 ≤ n ∧ n ≤ 255) ∧ (n : ℚ) - 1 / 2 ≤ (a * 255).value ∧
      (a * 255).value < n + 1 / 2 ∧ alphaText s = .ok (byteText n) := by
  have hscaled : Between 0 (255 : Nat) (a * 255) :=
    (between_of_lt_one h0 hlt).mul_ofNat (by norm_num)
  obtain ⟨n, hn, hlow, hhigh⟩ := exists_nearest_int hscaled.isFinite
  have h0 := hscaled.le_value
  have h1 := hscaled.value_le
  push_cast at h1
  have hn0 : -1 < n := by exact_mod_cast (by push_cast; linarith : ((-1 : ℤ) : ℚ) < n)
  have hn1 : n < 256 := by exact_mod_cast (by push_cast; linarith : (n : ℚ) < (256 : ℤ))
  refine ⟨n, by omega, hlow, hhigh, ?_⟩
  rw [alphaText, ha]
  simp only
  rw [if_pos hlt]
  exact map_eq_ok.mpr ⟨n, hn, rfl⟩

/-- The alpha of a translucent colour is written as a byte. -/
lemma exists_alphaDigits {s : Sample} (ha : s.AlphaNonneg) : ∃ n : Option ℤ,
    (∀ k ∈ n, 0 ≤ k ∧ k ≤ 255) ∧ n.isSome = s.isTranslucent ∧
      (n = some 255 ↔ s.IsAlmostOpaque .hex) ∧
      alphaText s = .ok ((n.map byteText).getD []) := by
  rw [Sample.isTranslucent, Sample.IsAlmostOpaque]
  cases halpha : s.alpha with
  | none => exact ⟨none, by simp, rfl, by simp, by rw [alphaText, halpha]; rfl⟩
  | some a =>
      by_cases hlt : a < 1
      · obtain ⟨n, hn, hlow, hhigh, htext⟩ := exists_alphaByte halpha (ha a halpha) hlt
        have hone : n = 255 ↔ 509 / 2 ≤ (a * 255).value := by
          constructor
          · rintro rfl
            push_cast at hlow
            linarith
          · intro hlarge
            have hlt : 254 < n := by exact_mod_cast (by push_cast; linarith : ((254 : ℤ) : ℚ) < n)
            omega
        exact ⟨some n, by simpa using hn, by simp [hlt], by simp [hlt, hone], htext⟩
      · refine ⟨none, by simp, by simp [hlt], by simp [hlt], ?_⟩
        rw [alphaText, halpha]
        exact if_neg hlt

end Hex

/-! ### Colours of bytes -/

namespace Bytes

variable (c : Bytes) {alpha : Option Binary64}

lemma inGamut_sample (alpha : Option Binary64) : (c.sample alpha).InGamut := by
  have hmem {n : ℤ} (hn : 0 ≤ n ∧ n ≤ 255) : Between 0 255 (ofInt n) := by
    obtain ⟨hfinite, hvalue⟩ := value_ofInt (n := n) (by omega)
    refine ⟨hfinite, ?_, ?_⟩ <;> rw [hvalue]
    · exact_mod_cast hn.1
    · exact_mod_cast hn.2
  exact ⟨hmem c.red_mem, hmem c.green_mem, hmem c.blue_mem⟩

/-- A byte is written as it is. -/
lemma integerText_ofInt {n : ℤ} (hn : 0 ≤ n ∧ n ≤ 255) :
    integerText <$> (ofInt n).roundHalfUp = .ok (digitsOf n.toNat) := by
  obtain ⟨k, rfl⟩ := Int.eq_ofNat_of_zero_le hn.1
  exact map_eq_ok.mpr ⟨k, roundHalfUp_ofInt (by omega), integerText_natCast k⟩

/-- The bytes as an `rgb` function, with the text of an alpha if there is one. -/
def rgbText (c : Bytes) (alpha : Option Text) : Text :=
  functionText "rgb".toList (digitsOf c.red.toNat) (digitsOf c.green.toNat)
    (digitsOf c.blue.toNat) alpha

lemma write_rgb {t : Option Text} (ht : Layout.alphaText (c.sample alpha) = .ok t) :
    Rgb.write (c.sample alpha) true = .ok (c.rgbText t) := by
  rw [Rgb.write]
  exact bind_eq_ok.mpr ⟨_, integerText_ofInt c.red_mem,
    bind_eq_ok.mpr ⟨_, integerText_ofInt c.green_mem,
      bind_eq_ok.mpr ⟨_, integerText_ofInt c.blue_mem,
        bind_eq_ok.mpr ⟨_, ht, congrArg Except.ok (commas_eq _ _ _ _ _ _)⟩⟩⟩⟩

/-- The bytes as an `rgb` function. -/
lemma exists_rgb (ha : (c.sample alpha).AlphaNonneg) : ∃ t,
    Rgb.write (c.sample alpha) true = .ok t ∧
      Rgb.IsWritten (c.sample alpha).isTranslucent t := by
  obtain ⟨n, hn, htranslucent, -, hn'⟩ := Sample.exists_alphaText_eq ha
  have hbyte {n : ℤ} (hn : 0 ≤ n ∧ n ≤ 255) : n.toNat ≤ 255 := by omega
  have hshape := Rgb.IsWritten.intro (hbyte c.red_mem) (hbyte c.green_mem) (hbyte c.blue_mem) hn
  rw [htranslucent] at hshape
  exact ⟨_, c.write_rgb hn', hshape⟩

/-- The bytes in hexadecimal digits, with those of an alpha if there is one. -/
def hexDigits (c : Bytes) (alpha : Option ℤ) : Text :=
  Hex.byteText c.red ++ Hex.byteText c.green ++ Hex.byteText c.blue ++
    (alpha.map Hex.byteText).getD []

lemma write_hex {n : Option ℤ}
    (hn : Hex.alphaText (c.sample alpha) = .ok ((n.map Hex.byteText).getD [])) :
    Hex.write (c.sample alpha) true = .ok ('#' :: c.hexDigits n) := by
  rw [Hex.write_eq]
  exact bind_eq_ok.mpr ⟨_, Hex.channelText_ofInt c.red_mem, bind_eq_ok.mpr
    ⟨_, Hex.channelText_ofInt c.green_mem, bind_eq_ok.mpr ⟨_, Hex.channelText_ofInt c.blue_mem,
      bind_eq_ok.mpr ⟨_, hn, rfl⟩⟩⟩⟩

lemma length_hexDigits {n : Option ℤ} (hn : ∀ k ∈ n, 0 ≤ k ∧ k ≤ 255) :
    (c.hexDigits n).length = if n.isSome then 8 else 6 := by
  have hred := (Hex.byteText_spec c.red_mem).1
  have hgreen := (Hex.byteText_spec c.green_mem).1
  have hblue := (Hex.byteText_spec c.blue_mem).1
  cases n with
  | none => simp [hexDigits, hred, hgreen, hblue]
  | some k => simp [hexDigits, hred, hgreen, hblue, (Hex.byteText_spec (hn k rfl)).1]

lemma isLowerHexDigit_hexDigits {n : Option ℤ} (hn : ∀ k ∈ n, 0 ≤ k ∧ k ≤ 255) :
    ∀ d ∈ c.hexDigits n, isLowerHexDigit d = true := by
  intro d hd
  simp only [hexDigits, List.mem_append] at hd
  rcases hd with ((hd | hd) | hd) | hd
  · exact (Hex.byteText_spec c.red_mem).2 d hd
  · exact (Hex.byteText_spec c.green_mem).2 d hd
  · exact (Hex.byteText_spec c.blue_mem).2 d hd
  · cases n with
    | none => exact absurd hd (by simp)
    | some k => exact (Hex.byteText_spec (hn k rfl)).2 d hd

/-- The bytes in hexadecimal digits. -/
lemma exists_hex (ha : (c.sample alpha).AlphaNonneg) : ∃ t,
    Hex.write (c.sample alpha) true = .ok t ∧
      Hex.IsWritten (c.sample alpha).isTranslucent t := by
  obtain ⟨n, hn, htranslucent, -, hn'⟩ := Hex.exists_alphaDigits ha
  refine ⟨_, c.write_hex hn', .intro ?_ (c.isLowerHexDigit_hexDigits hn)⟩
  rw [c.length_hexDigits hn, htranslucent]

/-- Numbers of degrees and of tenths that are nearest to a hue, a saturation and a lightness, but
for the errors of rounding. -/
structure IsNearest (c : Bytes) (hue saturation lightness : Nat) : Prop where
  hue_le : hue ≤ 360
  saturation_le : saturation ≤ 1000
  lightness_le : lightness ≤ 1000
  hue_near : |(hue : ℚ) / 60 - c.hsl.hue| ≤ 1 / 120 + 1 / 2 ^ 20
  saturation_near : |(saturation : ℚ) / 1000 - c.hsl.saturation| ≤ 1 / 2000 + 1 / 2 ^ 20
  lightness_near : |(lightness : ℚ) / 1000 - c.hsl.lightness| ≤ 1 / 2000 + 1 / 2 ^ 20

/-- The bytes as an `hsl` function, with the text of an alpha if there is one. -/
lemma exists_hsl {t : Option Text} (ht : Layout.alphaText (c.sample alpha) = .ok t) :
    ∃ hue saturation lightness : Nat, c.IsNearest hue saturation lightness ∧
      Hsl.write (c.sample alpha) true = .ok (functionText "hsl".toList (digitsOf hue)
        (tenthsText saturation ++ ['%']) (tenthsText lightness ++ ['%']) t) := by
  obtain ⟨x, hx, hhue, hsaturation, hlightness⟩ := c.ofSample_near alpha
  obtain ⟨y, hy, hrange⟩ := Hsl.ofSample_spec (c.inGamut_sample alpha)
  obtain rfl : x = y := Except.ok.inj (hx.symm.trans hy)
  obtain ⟨hue, hhue', hhuele, hhuelow, hhuehigh⟩ := exists_fixedText_eq (k := 360)
    (by exact_mod_cast hrange.hue) (by norm_num : 0 ≤ 6) (by norm_num [maxDigits])
  have htenths {x : Binary64} (hx : Between 0 100 x) := exists_fixedText_eq (k := 100)
    (by exact_mod_cast hx) (by norm_num : 1 ≤ 6) (by norm_num [maxDigits])
  obtain ⟨saturation, hsat', hsatle, hsatlow, hsathigh⟩ := htenths hrange.saturation
  obtain ⟨lightness, hlight', hlightle, hlightlow, hlighthigh⟩ := htenths hrange.lightness
  rw [Nat.cast_zero, neg_zero, scaledText_zero] at hhue'
  rw [scaledText_neg (by norm_num) (by norm_num), Nat.cast_one] at hsat' hlight'
  have hhueerror := abs_le.mp (hhue.abs_sub_le_of_le le_rfl)
  have hsaterror := abs_le.mp (hsaturation.abs_sub_le_of_le le_rfl)
  have hlighterror := abs_le.mp (hlightness.abs_sub_le_of_le le_rfl)
  refine ⟨hue, saturation, lightness, ⟨by simpa using hhuele, by simpa using hsatle,
    by simpa using hlightle, ?_, ?_, ?_⟩, ?_⟩
  · rw [pow_zero, mul_one] at hhuelow hhuehigh
    rw [abs_le]
    constructor <;> linarith [hhueerror.1, hhueerror.2]
  · rw [pow_one] at hsatlow hsathigh
    rw [abs_le]
    constructor <;> linarith [hsaterror.1, hsaterror.2]
  · rw [pow_one] at hlightlow hlighthigh
    rw [abs_le]
    constructor <;> linarith [hlighterror.1, hlighterror.2]
  · have hwrite : Hsl.write (c.sample alpha) true = .ok (Layout.commas "hsl".toList
        [digitsOf hue, Text.dropEnd ".0".toList (pointText 1 saturation) ++ ['%'],
          Text.dropEnd ".0".toList (pointText 1 lightness) ++ ['%']]
        [digitsOf hue, Text.dropEnd ".0".toList (pointText 1 saturation),
          Text.dropEnd ".0".toList (pointText 1 lightness)] t true) :=
      bind_eq_ok.mpr ⟨_, hx, bind_eq_ok.mpr ⟨_, hhue', bind_eq_ok.mpr ⟨_, hsat',
        bind_eq_ok.mpr ⟨_, hlight', bind_eq_ok.mpr ⟨_, ht, rfl⟩⟩⟩⟩⟩
    rw [hwrite, commas_eq, dropEnd_pointText, dropEnd_pointText]

/-- Bytes are written in every form but `oklch` as the form is written. -/
theorem exists_isWritten [Elementary] {form : Form} (hform : form ≠ .oklch)
    (ha : (c.sample alpha).AlphaNonneg) : ∃ t, form.write (c.sample alpha) true = .ok t ∧
      form.IsWritten (c.sample alpha).isTranslucent t := by
  cases form with
  | hex => exact c.exists_hex ha
  | rgb => exact c.exists_rgb ha
  | hsl =>
      obtain ⟨n, hn, htranslucent, -, hn'⟩ := Sample.exists_alphaText_eq ha
      obtain ⟨hue, saturation, lightness, hnear, hwrite⟩ := c.exists_hsl hn'
      have hshape := Hsl.IsWritten.intro hnear.hue_le hnear.saturation_le hnear.lightness_le hn
      rw [htranslucent] at hshape
      exact ⟨_, hwrite, hshape⟩
  | oklch => exact absurd rfl hform

end Bytes

end Swatch
