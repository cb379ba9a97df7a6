import Swatch.Proofs.Color.HueBytes
import Swatch.Proofs.Document.Intermediate
import Swatch.Proofs.Form.Written
/-!
What is written is read again.

A written function is a function of the grammar, and hexadecimal digits are a literal, so that a
written text is one token.  Its numbers are small, so that reading them fails nowhere.

* `Token.ofWhole?_of_isLiteral`: a literal by itself is one token.
* `Rgb.isFunction_functionText`, `Hsl.isFunction_functionText`: what is written is a function.
* `Hsl.exists_sample`: on the wheel, the bytes that are read from a written `hsl` function are at
  most half a byte from the exact channels; those of a full turn are equal.
* `Form.IsWritten.exists_sample`: a written text denotes a colour.
* `Color.isWritten_of_value_eq_some`: what a colour is converted to is written as its form is, and
  is converted again.
-/

namespace Swatch

open Binary64 Decimal Parts

/-! ### Literals by themselves -/

/-- What is read as a letter is no blank. -/
lemma IsLetter.isBlank_eq_false {w c : Char} (hw : IsLowerLetter w) (h : IsLetter w c) :
    isBlank c = false := by
  have hupper := toNat_toUpper_of_lower hw
  obtain ⟨h1, h2⟩ := hw
  rcases h with rfl | rfl | ⟨-, rfl⟩ | ⟨-, rfl⟩
  · rw [Bool.eq_false_iff, ne_eq, isBlank_iff]
    omega
  · rw [Bool.eq_false_iff, ne_eq, isBlank_iff]
    omega
  · decide
  · decide

/-- Trimming takes nothing off a literal. -/
lemma IsLiteral.trim_eq {rest text : Text} {form : Form} (h : IsLiteral rest form text) :
    Text.trim isBlank text = text := by
  cases h with
  | @function _ word name argument hword hname hne hclose =>
      refine Text.trim_eq_self ?_ ?_
      · cases hname with
        | nil => exact Text.stops_cons.mpr (by decide)
        | cons hc _ =>
            refine Text.stops_cons.mpr (hc.isBlank_eq_false ?_)
            exact Form.isLowerLetter_of_mem_keywords hword _ List.mem_cons_self
      · rw [← List.cons_append, ← List.append_assoc, List.reverse_append]
        exact Text.stops_cons.mpr (by decide)
  | @hex digits hmin hmax hdigits hstop =>
      refine Text.trim_eq_self (Text.stops_cons.mpr (by decide)) fun c hc => ?_
      rcases List.mem_cons.mp (mem_of_mem_head?_reverse hc) with rfl | hmem
      · decide
      · exact isBlank_of_isHexDigit (hdigits c hmem)

/-- A literal by itself is one token. -/
lemma Token.ofWhole?_of_isLiteral {text : Text} {form : Form} (h : IsLiteral [] form text) :
    Token.ofWhole? text = some ⟨⟨form, text⟩, 0⟩ := by
  have hhead := Literal.atHead?_append h
  rw [List.append_nil] at hhead
  simp only [Token.ofWhole?, h.trim_eq, hhead, if_true]

/-- The token that a text is found to be is a literal. -/
lemma Token.isLiteral_of_ofWhole? {s : Text} {t : Token} (h : Token.ofWhole? s = some t) :
    ∃ rest, IsLiteral rest t.form t.text := by
  rw [Token.ofWhole?] at h
  split at h
  · next l hl =>
    split_ifs at h
    obtain ⟨rest, -, hliteral⟩ := Literal.atHead?_eq_some_iff.mp hl
    obtain rfl := Option.some.inj h
    exact ⟨rest, hliteral⟩
  · exact absurd h (by simp)

/-! ### Written functions -/

section Function

variable {alpha : Option Text}

lemma isRun_comma : IsRun isSeparator ", ".toList := ⟨by decide, by decide⟩

lemma isAlphaPart_alphaTail (halpha : ∀ a ∈ alpha, IsPercentage a) :
    IsAlphaPart isAlphaMark alpha (alphaTail alpha) := by
  cases alpha with
  | none => exact .none
  | some a =>
      have hpart : IsAlphaPart isAlphaMark (some a) ([] ++ ',' :: ([' '] ++ a)) :=
        .some (by simp [IsBlanks]) (by decide) (by simp [IsBlanks, isBlank]) (halpha a rfl)
      exact hpart

lemma Rgb.isFunction_functionText (halpha : ∀ a ∈ alpha, IsPercentage a) (red green blue : Nat) :
    Rgb.IsFunction ⟨digitsOf red, digitsOf green, digitsOf blue, alpha⟩
      (functionText "rgb".toList (digitsOf red) (digitsOf green) (digitsOf blue) alpha) := by
  have hname : functionName "rgb".toList alpha ∈ Form.rgb.keywords := by
    cases alpha <;> simp [functionName, Form.keywords]
  exact .intro hname (.plain (isRun_digitsOf red)) isRun_comma (.plain (isRun_digitsOf green))
    isRun_comma (.plain (isRun_digitsOf blue)) (isAlphaPart_alphaTail halpha)

lemma Hsl.isFunction_functionText (halpha : ∀ a ∈ alpha, IsPercentage a)
    (hue saturation lightness : Nat) :
    Hsl.IsFunction ⟨digitsOf hue, tenthsText saturation, tenthsText lightness, alpha⟩
      (functionText "hsl".toList (digitsOf hue) (tenthsText saturation ++ ['%'])
        (tenthsText lightness ++ ['%']) alpha) := by
  have hname : functionName "hsl".toList alpha ∈ Form.hsl.keywords := by
    cases alpha <;> simp [functionName, Form.keywords]
  have hgap : IsRun isHueSeparator ", ".toList := ⟨by decide, by decide⟩
  have hfunction := Hsl.IsFunction.intro hname (isRun_digitsOf hue) (Or.inl rfl) hgap
    (isDecimal_tenthsText saturation) (Or.inr rfl) isRun_comma (isDecimal_tenthsText lightness)
    (Or.inr rfl) (isAlphaPart_alphaTail halpha)
  simpa only [functionText, List.append_assoc, List.nil_append] using hfunction

end Function

/-! ### Their numbers -/

/-- An alpha in hundredths is written as digits and points. -/
lemma isPercentage_hundredthsText (alpha : Option Nat) :
    ∀ a ∈ alpha.map hundredthsText, IsPercentage a := by
  intro a ha
  obtain ⟨n, -, rfl⟩ := Option.map_eq_some_iff.mp ha
  exact .plain (isDecimal_hundredthsText n)

/-- An alpha in hundredths is read. -/
lemma exists_readAlpha (alpha : Option Nat) :
    ∃ a, Swatch.readAlpha (alpha.map hundredthsText) = .ok a := by
  cases alpha with
  | none => exact ⟨none, rfl⟩
  | some n =>
      obtain ⟨x, hx, -⟩ := exists_readNumber_hundredthsText n
      refine ⟨some x, ?_⟩
      rw [Option.map_some, Swatch.readAlpha,
        endsWith_percent_of_isDecimal (isDecimal_hundredthsText n)]
      exact map_some_eq_ok.mpr hx

lemma readInteger_digitsOf {n : Nat} (hn : n < 1000) : readInteger (digitsOf n) = .ok (n : ℤ) := by
  rw [← integerText_natCast]
  refine readInteger_integerText (lt_of_lt_of_le (by omega : (n : ℤ).natAbs < 10 ^ 3) ?_)
  exact Nat.pow_le_pow_right (by norm_num) (by decide)

/-- A number of tenths in hundredths is near the exact one. -/
lemma exists_tenths {n : Nat} (hn : n ≤ 1000) :
    ∃ x, readNumber (tenthsText n) = .ok x ∧ Near 2 ((n : ℚ) / 1000) (x / 100) := by
  obtain ⟨x, hx, hround⟩ := exists_readNumber_tenthsText n
  have hle : |(n : ℚ) / 10| ≤ 512 := by
    rw [abs_of_nonneg (by positivity), div_le_iff₀ (by norm_num)]
    exact_mod_cast hn.trans (by norm_num)
  have hnear := (hround.near (k := 0) (by simp) (by norm_num) hle).div_ofNat (n := 100)
    (by norm_num) (by norm_num) (by norm_num) hle
  refine ⟨x, hx, ?_⟩
  rwa [div_div, Nat.cast_ofNat, show (10 : ℚ) * 100 = 1000 by norm_num] at hnear

/-! ### Their colours -/

/-- What is written is read as the colour of its integers. -/
lemma Rgb.sample_functionText [Elementary] {red green blue : Nat} (hred : red ≤ 255)
    (hgreen : green ≤ 255)
    (hblue : blue ≤ 255) {alpha : Option Nat} {a : Option Binary64}
    (ha : Swatch.readAlpha (alpha.map hundredthsText) = .ok a) :
    (Literal.mk .rgb (functionText "rgb".toList (digitsOf red) (digitsOf green)
      (digitsOf blue) (alpha.map hundredthsText))).sample
        = .ok (some ⟨ofInt red, ofInt green, ofInt blue, a⟩) := by
  have hfunction : Form.rgb.IsFunction _ _ :=
    Rgb.isFunction_functionText (isPercentage_hundredthsText alpha) red green blue
  have hfound := hfunction.leftmost?_eq
  rw [Form.components?] at hfound
  have hfinite {n : Nat} (hn : n ≤ 255) : (ofInt n).isFinite = true :=
    isFinite_ofInt ⟨by omega, by omega⟩
  rw [Literal.sample_eq, hfunction.readText_eq, Form.read, Rgb.read, hfound]
  exact bind_eq_ok.mpr ⟨red, readInteger_digitsOf (by omega), bind_eq_ok.mpr ⟨green,
    readInteger_digitsOf (by omega), bind_eq_ok.mpr ⟨blue, readInteger_digitsOf (by omega),
      bind_eq_ok.mpr ⟨a, ha, map_some_eq_ok.mpr (Sample.ofIntegers_eq_ok_iff.mpr
        ⟨⟨hfinite hred, hfinite hgreen, hfinite hblue⟩, rfl⟩)⟩⟩⟩⟩

namespace Hsl

/-- The colour that a written function says: an integer hue, and tenths of percents. -/
def exactOf (hue saturation lightness : Nat) : ExactHsl :=
  ⟨(hue : ℚ) / 60, (saturation : ℚ) / 1000, (lightness : ℚ) / 1000⟩

variable {hue saturation lightness : Nat}

lemma inRange_exactOf (hue : Nat) (hsaturation : saturation ≤ 1000)
    (hlightness : lightness ≤ 1000) :
    (exactOf hue saturation lightness).InRange := by
  have hpart {n : Nat} (hn : n ≤ 1000) : 0 ≤ (n : ℚ) / 1000 ∧ (n : ℚ) / 1000 ≤ 1 := by
    refine ⟨by positivity, ?_⟩
    rw [div_le_one (by norm_num)]
    exact_mod_cast hn
  exact ⟨hpart hsaturation, hpart hlightness⟩

/-- What is near a channel is a number of the format. -/
lemma isFinite_ofInt_of_near {n : ℤ} {q : ℚ} (hq : -1 ≤ q ∧ q ≤ 1)
    (h : |(n : ℚ) - 255 * q| ≤ 1 / 2 + 1 / 2 ^ 20) : (ofInt n).isFinite = true := by
  obtain ⟨hlow, hhigh⟩ := abs_le.mp h
  have hlow' : (-256 : ℤ) ≤ n := by exact_mod_cast (by push_cast; linarith : ((-256 : ℤ) : ℚ) ≤ n)
  have hhigh' : n ≤ 256 := by exact_mod_cast (by push_cast; linarith : (n : ℚ) ≤ ((256 : ℤ) : ℚ))
  exact (value_ofInt (by omega)).1

/-- The bytes that are read of a written function.  On the wheel, they are at most half a byte from
the exact channels, but for the errors of rounding; those of a full turn are equal. -/
lemma exists_toBytes (hhue : hue ≤ 360) (hsaturation : saturation ≤ 1000)
    (hlightness : lightness ≤ 1000) {s l : Binary64} (hs : Near 2 ((saturation : ℚ) / 1000) s)
    (hl : Near 2 ((lightness : ℚ) / 1000) l) :
    ∃ n : Channel → ℤ, (Hue.whole hue).toBytes s l = .ok (n .red, n .green, n .blue) ∧
      (∀ x, (ofInt (n x)).isFinite = true) ∧
      (hue < 360 → ∀ x, |(n x : ℚ) - 255 * (exactOf hue saturation lightness).channel x|
        ≤ 1 / 2 + 1 / 2 ^ 20) ∧
      (hue = 360 → n .red = n .green ∧ n .green = n .blue) := by
  have hrange := inRange_exactOf hue hsaturation hlightness
  rcases hhue.lt_or_eq with hlt | rfl
  · obtain ⟨n, hn, hnear⟩ := Hue.toBytes_near hlt hrange rfl hs hl
    refine ⟨n, hn, fun x => ?_, fun _ => hnear, fun heq => absurd heq hlt.ne⟩
    obtain ⟨h0, h1⟩ := hrange.channel_mem x
    exact isFinite_ofInt_of_near ⟨by linarith, h1⟩ (hnear x)
  · obtain ⟨n, hn, hnear⟩ := Hue.toBytes_fullTurn hrange hs hl
    refine ⟨fun _ => n, hn, fun _ => ?_, fun hlt => absurd hlt (lt_irrefl _), fun _ => ⟨rfl, rfl⟩⟩
    obtain ⟨h0, h1⟩ := hrange.chroma_mem
    obtain ⟨hl0, hl1⟩ := hrange.lightness
    exact isFinite_ofInt_of_near ⟨by linarith, by linarith⟩ hnear

/-- What is written is read as the colour of these bytes. -/
theorem exists_sample [Elementary] (hhue : hue ≤ 360) (hsaturation : saturation ≤ 1000)
    (hlightness : lightness ≤ 1000) {alpha : Option Nat} {a : Option Binary64}
    (ha : Swatch.readAlpha (alpha.map hundredthsText) = .ok a) :
    ∃ n : Channel → ℤ,
      (Literal.mk .hsl (functionText "hsl".toList (digitsOf hue) (tenthsText saturation ++ ['%'])
        (tenthsText lightness ++ ['%']) (alpha.map hundredthsText))).sample
          = .ok (some ⟨ofInt (n .red), ofInt (n .green), ofInt (n .blue), a⟩) ∧
      (∀ x, (ofInt (n x)).isFinite = true) ∧
      (hue < 360 → ∀ x, |(n x : ℚ) - 255 * (exactOf hue saturation lightness).channel x|
        ≤ 1 / 2 + 1 / 2 ^ 20) ∧
      (hue = 360 → n .red = n .green ∧ n .green = n .blue) := by
  have hfunction : Form.hsl.IsFunction _ _ :=
    Hsl.isFunction_functionText (isPercentage_hundredthsText alpha) hue saturation lightness
  have hfound := hfunction.leftmost?_eq
  rw [Form.components?] at hfound
  obtain ⟨s, hs, hsnear⟩ := exists_tenths hsaturation
  obtain ⟨l, hl, hlnear⟩ := exists_tenths hlightness
  obtain ⟨n, hn, hfinite, hwheel, hturn⟩ :=
    exists_toBytes hhue hsaturation hlightness hsnear hlnear
  refine ⟨n, ?_, hfinite, hwheel, hturn⟩
  rw [Literal.sample_eq, hfunction.readText_eq, Form.read, Hsl.read, hfound]
  exact bind_eq_ok.mpr ⟨hue, readInteger_digitsOf (by omega), bind_eq_ok.mpr ⟨s, hs,
    bind_eq_ok.mpr ⟨l, hl, bind_eq_ok.mpr ⟨_, hn, bind_eq_ok.mpr ⟨a, ha,
      map_some_eq_ok.mpr (Sample.ofIntegers_eq_ok_iff.mpr
        ⟨⟨hfinite .red, hfinite .green, hfinite .blue⟩, rfl⟩)⟩⟩⟩⟩⟩

end Hsl

/-! ### Hexadecimal digits -/

lemma isHexDigit_of_isLowerHexDigit {c : Char} (h : isLowerHexDigit c = true) :
    isHexDigit c = true := by
  rw [isHexDigit, ← isLowerHexDigit, h, Bool.true_or]

lemma Hex.exists_components? {digits : Text} (h : digits.length = 6 ∨ digits.length = 8) :
    ∃ c, Hex.components? digits = some c := by
  match digits, h with
  | [_, _, _, _, _, _], _ => exact ⟨_, rfl⟩
  | [_, _, _, _, _, _, _, _], _ => exact ⟨_, rfl⟩

/-- Six or eight digits are read as a colour. -/
lemma Hex.exists_sample [Elementary] {digits : Text} (hdigits : ∀ d ∈ digits, isHexDigit d = true)
    (hlength : digits.length = 6 ∨ digits.length = 8) :
    ∃ c, Hex.components? (Text.lower digits) = some c ∧
      (Literal.mk .hex ('#' :: digits)).sample = .ok (some (Hex.sampleOf c)) := by
  have hlower : (Text.lower digits).length = 6 ∨ (Text.lower digits).length = 8 := by
    rwa [Text.length_lower]
  obtain ⟨c, hc⟩ := Hex.exists_components? hlower
  refine ⟨c, hc, ?_⟩
  rw [Literal.sample_eq, readText_hex hdigits]
  exact Hex.read_eq (isHexDigit_of_mem_lower hdigits) hc

/-! ### Written texts -/

section Written

variable {form : Form} {translucent : Bool} {t : Text}

/-- A written text is a literal. -/
lemma Form.IsWritten.isLiteral (h : form.IsWritten translucent t) : IsLiteral [] form t := by
  cases form with
  | hex =>
      cases h with
      | intro hlength hdigits =>
          refine isLiteral_digits ?_ ?_ fun c hc => isHexDigit_of_isLowerHexDigit (hdigits c hc)
          all_goals
            split_ifs at hlength <;> omega
  | rgb =>
      cases h with
      | @intro red green blue alpha hred hgreen hblue halpha =>
          have hfunction : Form.rgb.IsFunction _ _ :=
            Rgb.isFunction_functionText (isPercentage_hundredthsText alpha) red green blue
          exact hfunction.isLiteral []
  | hsl =>
      cases h with
      | @intro hue saturation lightness alpha hhue hsaturation hlightness halpha =>
          have hfunction : Form.hsl.IsFunction _ _ := Hsl.isFunction_functionText
            (isPercentage_hundredthsText alpha) hue saturation lightness
          exact hfunction.isLiteral []
  | oklch => exact absurd h id

/-- A written text denotes a colour. -/
lemma Form.IsWritten.exists_sample [Elementary] (h : form.IsWritten translucent t) :
    ∃ s, (Literal.mk form t).sample = .ok (some s) := by
  cases form with
  | hex =>
      cases h with
      | @intro digits hlength hdigits =>
          obtain ⟨c, -, hc⟩ := Hex.exists_sample
            (fun d hd => isHexDigit_of_isLowerHexDigit (hdigits d hd))
            (by split_ifs at hlength <;> omega)
          exact ⟨_, hc⟩
  | rgb =>
      cases h with
      | @intro _ _ _ alpha hred hgreen hblue _ =>
          obtain ⟨a, ha⟩ := exists_readAlpha alpha
          exact ⟨_, Rgb.sample_functionText hred hgreen hblue ha⟩
  | hsl =>
      cases h with
      | @intro _ _ _ alpha hhue hsaturation hlightness _ =>
          obtain ⟨a, ha⟩ := exists_readAlpha alpha
          obtain ⟨n, hn, -⟩ := Hsl.exists_sample hhue hsaturation hlightness ha
          exact ⟨_, hn⟩
  | oklch => exact absurd h id

/-- Clamped, the colour of a literal has bytes for its channels. -/
lemma IsLiteral.exists_bytes [Elementary] {rest : Text} {l : Literal}
    (hl : IsLiteral rest l.form l.text)
    {s : Sample} (hs : l.sample = .ok (some s)) :
    ∃ c : Bytes, s.clamped = .ok (c.sample s.alpha) ∧ (c.sample s.alpha).AlphaNonneg := by
  obtain ⟨hintegral, hnonneg⟩ := hl.sample_spec hs
  obtain ⟨red, green, blue, hred, hgreen, hblue, hclamped⟩ := hintegral.clamped_eq
  obtain ⟨c, hc⟩ : ∃ c : Bytes, s.clamped = .ok (c.sample s.alpha) :=
    ⟨⟨red, green, blue, hred, hgreen, hblue⟩, hclamped⟩
  refine ⟨c, hc, ?_⟩
  rwa [Sample.AlphaNonneg, c.alpha_sample]

/-- A literal that denotes a colour is written in every form but `oklch` as the form is written,
with an alpha just if that of the colour is below one. -/
lemma IsLiteral.exists_isWritten [Elementary] {rest : Text} {l : Literal}
    (hl : IsLiteral rest l.form l.text)
    {s : Sample} (hs : l.sample = .ok (some s)) (hform : form ≠ .oklch) :
    ∃ t, l.outcome form true = .ok (some t) ∧ form.IsWritten s.isTranslucent t := by
  obtain ⟨c, hc, hnonneg⟩ := hl.exists_bytes hs
  have htranslucent : (c.sample s.alpha).isTranslucent = s.isTranslucent := by
    rw [Sample.isTranslucent, Sample.isTranslucent, c.alpha_sample]
  obtain ⟨t, ht, hshape⟩ := c.exists_isWritten hform hnonneg
  rw [htranslucent] at hshape
  refine ⟨t, ?_, hshape⟩
  rw [Literal.outcome_of_sample hs hc]
  exact map_some_eq_ok.mpr ht

end Written

/-! ### Single colours -/

namespace Color

/-- What a single colour converts to is the text of the outcome of its token. -/
lemma value_convert?_eq_some_iff [Elementary] {target : Form} {functional : Bool} {s t : Text} :
    (convert? ⟨target.name, functional⟩ s).value = some t ↔ ∃ token, Token.ofWhole? s = some token ∧
      token.toLiteral.outcome target functional = .ok (some t) := by
  rw [convert?]
  cases Token.ofWhole? s with
  | none => simp
  | some token =>
      simp only [Reported.value_bind, Settings.target_name, Reported.value_pure, Literal.convert?,
        Option.some.injEq, exists_eq_left']
      cases token.toLiteral.outcome target functional with
      | error fault => exact iff_of_false (fun h => by cases h) (by simp)
      | ok found =>
          cases found with
          | none => exact iff_of_false (fun h => by cases h) (by simp)
          | some text => simp

/-- A written text is converted again, whatever it is converted to. -/
lemma value_convert?_isWritten [Elementary] [Elementary.IsAccurate] {form : Form}
    {translucent : Bool} {t : Text}
    (h : form.IsWritten translucent t) {settings : Settings} (htarget : settings.target? ≠ none) :
    (convert? settings t).value ≠ none := by
  obtain ⟨target, htarget⟩ := Option.ne_none_iff_exists'.mp htarget
  obtain ⟨output, functional⟩ := settings
  obtain rfl := Form.name_of_ofName? htarget
  obtain ⟨s, hs⟩ := h.exists_sample
  obtain ⟨text, htext⟩ := IsLiteral.exists_outcome (l := ⟨form, t⟩) h.isLiteral hs target functional
  rw [value_convert?_eq_some_iff.mpr ⟨_, Token.ofWhole?_of_isLiteral h.isLiteral, htext⟩]
  simp

/-- **What a colour is converted to**, in every form but `oklch`: one token of that form, which
makes up the whole text and is converted again under all settings that name a form.  It is written
as the form is, with an alpha just if the colour that was read has one below one. -/
theorem isWritten_of_value_eq_some [Elementary] [Elementary.IsAccurate] {code r : Text}
    {target : Form} (htarget : target ≠ .oklch)
    (h : (convert? ⟨target.name, true⟩ code).value = some r) :
    Token.ofWhole? r = some ⟨⟨target, r⟩, 0⟩ ∧
      (∀ settings : Settings, settings.target? ≠ none → (convert? settings r).value ≠ none) ∧
      ∃ token s, Token.ofWhole? code = some token ∧ token.toLiteral.sample = .ok (some s) ∧
        target.IsWritten s.isTranslucent r := by
  obtain ⟨token, htoken, houtcome⟩ := value_convert?_eq_some_iff.mp h
  obtain ⟨rest, hl⟩ := Token.isLiteral_of_ofWhole? htoken
  obtain ⟨s, hs⟩ := Literal.exists_sample houtcome
  obtain ⟨t, ht, hwritten⟩ := hl.exists_isWritten hs htarget
  obtain rfl : t = r := Option.some.inj (Except.ok.inj (ht.symm.trans houtcome))
  exact ⟨Token.ofWhole?_of_isLiteral hwritten.isLiteral,
    fun settings hsettings => value_convert?_isWritten hwritten hsettings,
    token, s, htoken, hs, hwritten⟩

/-- A translucent red as an `hsl` function is one token. -/
theorem isWritten_translucentRed :
    Form.hsl ≠ .oklch ∧ (convert? ⟨Form.hsl.name, true⟩ " #F00a ".toList).value
        = some "hsla(0, 100%, 50%, 0.67)".toList ∧
      Token.ofWhole? "hsla(0, 100%, 50%, 0.67)".toList
        = some ⟨⟨.hsl, "hsla(0, 100%, 50%, 0.67)".toList⟩, 0⟩ := by
  have hform : Form.hsl ≠ .oklch := by decide
  have h : (convert? ⟨Form.hsl.name, true⟩ " #F00a ".toList).value
      = some "hsla(0, 100%, 50%, 0.67)".toList := by decide +kernel
  exact ⟨hform, h, (isWritten_of_value_eq_some hform h).1⟩

end Color

end Swatch
