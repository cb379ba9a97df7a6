import Swatch.Proofs.Form.Reading
import Swatch.Proofs.Form.Writing
import Swatch.Proofs.Literal.Reading
/-!
The colours that literals denote.

* `Form.spec_of_read`: what is read of a function has integer channels, and no negative alpha.
* `Hex.read_eq`: what is read of hexadecimal digits is the colour of their pairs.
* `IsLiteral.sample_spec`: the colour of a literal has integer channels, and an alpha that is not
  negative if it has one.
* `IsLiteral.exists_outcome`: so a literal that denotes a colour converts to every form.
-/

namespace Swatch

open Binary64 Parts

/-! ### Functions -/

lemma Form.spec_of_read [Elementary] {form : Form} (hform : form ≠ .hex) {s : Text} {c : Sample}
    (h : form.read s = .ok (some c)) : c.IsIntegral ∧ c.AlphaNonneg := by
  obtain ⟨found, rest, red, green, blue, alpha, hfound, halpha, hc⟩ := exists_of_read hform h
  obtain ⟨front, text, htext, -⟩ := leftmost?_eq_some hfound
  obtain ⟨hintegral, rfl⟩ := Sample.isIntegral_of_ofIntegers hc
  refine ⟨hintegral, fun a ha => ?_⟩
  rw [Option.mem_def] at ha
  rw [ha] at halpha
  cases hs : found.alpha with
  | none =>
      rw [hs, Swatch.readAlpha] at halpha
      exact absurd halpha (by simp)
  | some s =>
      rw [hs] at halpha
      exact (unsigned_of_readAlpha (htext.isPercentage s hs) halpha).nonneg

/-! ### Hexadecimal digits -/

lemma isHexDigit_iff {c : Char} : isHexDigit c = true ↔
    48 ≤ c.toNat ∧ c.toNat ≤ 57 ∨ 97 ≤ c.toNat ∧ c.toNat ≤ 102 ∨
      65 ≤ c.toNat ∧ c.toNat ≤ 70 := by
  simp only [isHexDigit, Bool.or_eq_true, Bool.and_eq_true, decide_eq_true_eq, isDigit_iff,
    Char.le_def, UInt32.le_iff_toNat_le, or_assoc]
  rfl

/-- A hexadecimal digit stays one in lower case. -/
lemma isHexDigit_lowerLetter {c : Char} (h : isHexDigit c = true) :
    isHexDigit (lowerLetter c) = true := by
  have hne : c ≠ kelvinSign := by
    rintro rfl
    exact absurd h (by decide)
  have hl := toNat_toLower c
  rw [show lowerLetter c = c.toLower from if_neg hne]
  rw [isHexDigit_iff] at h ⊢
  split at hl <;> omega

/-- A hexadecimal digit is no blank. -/
lemma isBlank_of_isHexDigit {c : Char} (h : isHexDigit c = true) : isBlank c = false := by
  rw [isHexDigit_iff] at h
  rw [Bool.eq_false_iff, ne_eq, isBlank_iff]
  omega

/-- Hexadecimal digits are read as their value. -/
lemma readHexByte_eq {s : Text} (hne : s ≠ []) (hs : ∀ c ∈ s, isHexDigit c = true) :
    readHexByte s = .ok (hexValue s : ℤ) := by
  have hplain : ∀ c ∈ s, c.toNat < 128 ∧ isAsciiBlank c = false := by
    intro c hc
    have hspace : ' '.toNat = 32 := rfl
    have hdigit := isHexDigit_iff.mp (hs c hc)
    refine ⟨by omega, ?_⟩
    rw [isAsciiBlank, Bool.or_eq_false_iff, beq_eq_false_iff_ne, ne_eq, ← Char.toNat_inj, hspace,
      Bool.and_eq_false_iff, decide_eq_false_iff_not, decide_eq_false_iff_not]
    omega
  have hnotMem {c : Char} (hc : isHexDigit c = false) : c ∉ s := by
    intro hmem
    rw [hs c hmem] at hc
    exact absurd hc (by simp)
  have hdigits : (decide (s ≠ []) && s.all isHexDigit) = true := by
    rw [Bool.and_eq_true, decide_eq_true_eq, List.all_eq_true]
    exact ⟨hne, hs⟩
  simp only [readHexByte, numeralText_eq_self hplain,
    splitSign_of_notMem (hnotMem (by decide : isHexDigit '-' = false))
      (hnotMem (by decide : isHexDigit '+' = false))]
  rw [if_pos hdigits]
  rfl

/-- The value of a hexadecimal digit. -/
lemma hexDigitValue_lt {c : Char} (h : isHexDigit c = true) : hexDigitValue c < 16 := by
  have hl := toNat_toLower c
  have hzero : '0'.toNat = 48 := rfl
  have ha : 'a'.toNat = 97 := rfl
  rw [isHexDigit_iff] at h
  rw [hexDigitValue]
  split_ifs with hdigit
  · rw [isDigit_iff] at hdigit
    omega
  · rw [isDigit_iff] at hdigit
    split at hl <;> omega

namespace Hex

/-- Two of the digits of a text. -/
structure IsPair (digits s : Text) : Prop where
  length_eq : s.length = 2
  mem : ∀ d ∈ s, d ∈ digits

/-- The components of hexadecimal digits are pairs of them. -/
lemma isPair_of_components? {digits : Text} {c : Components} (h : components? digits = some c) :
    IsPair digits c.first ∧ IsPair digits c.second ∧ IsPair digits c.third ∧
      ∀ a ∈ c.alpha, IsPair digits a := by
  rw [components?.eq_def] at h
  split at h <;> simp only [Option.some.injEq, reduceCtorEq] at h <;> subst h <;>
    refine ⟨⟨rfl, by simp⟩, ⟨rfl, by simp⟩, ⟨rfl, by simp⟩, ?_⟩ <;> rintro a ⟨⟩ <;>
    exact ⟨rfl, by simp⟩

/-- A pair of digits is read as its value, which is a byte. -/
lemma IsPair.readHexByte {digits s : Text} (h : IsPair digits s)
    (hdigits : ∀ d ∈ digits, isHexDigit d = true) :
    readHexByte s = .ok (hexValue s : ℤ) ∧ hexValue s ≤ 255 := by
  have hs : ∀ d ∈ s, isHexDigit d = true := fun d hd => hdigits d (h.mem d hd)
  obtain ⟨c, d, rfl⟩ := List.length_eq_two.mp h.length_eq
  refine ⟨readHexByte_eq (by simp) hs, ?_⟩
  have hc := hexDigitValue_lt (hs c (by simp))
  have hd := hexDigitValue_lt (hs d (by simp))
  have hvalue : hexValue [c, d] = 16 * (16 * 0 + hexDigitValue c) + hexDigitValue d := rfl
  omega

/-- What stands behind the number sign is no number sign. -/
lemma dropWhile_digits {digits : Text} (hdigits : ∀ d ∈ digits, isHexDigit d = true) :
    ('#' :: digits).dropWhile (· = '#') = digits := by
  rw [List.dropWhile_cons_of_pos (by decide)]
  refine List.dropWhile_eq_self_iff.mpr fun hlen => ?_
  rw [decide_eq_true_eq]
  intro heq
  exact absurd (hdigits _ (List.getElem_mem hlen)) (by rw [heq]; decide)

/-- The colour of pairs of digits. -/
def sampleOf (c : Components) : Sample :=
  ⟨ofInt (hexValue c.first : ℤ), ofInt (hexValue c.second : ℤ), ofInt (hexValue c.third : ℤ),
    c.alpha.map fun a => ofInt (hexValue a : ℤ) / 255⟩

/-- Hexadecimal digits are read as the colour of their pairs. -/
lemma read_eq {digits : Text} (hdigits : ∀ d ∈ digits, isHexDigit d = true) {c : Components}
    (h : components? digits = some c) : read ('#' :: digits) = .ok (some (sampleOf c)) := by
  obtain ⟨hred, hgreen, hblue, halpha⟩ := isPair_of_components? h
  obtain ⟨hred, hred'⟩ := hred.readHexByte hdigits
  obtain ⟨hgreen, hgreen'⟩ := hgreen.readHexByte hdigits
  obtain ⟨hblue, hblue'⟩ := hblue.readHexByte hdigits
  have hfinite {n : Nat} (hn : n ≤ 255) : (ofInt (n : ℤ)).isFinite = true :=
    isFinite_ofInt ⟨by omega, by omega⟩
  have hread : readAlpha c.alpha = .ok (sampleOf c).alpha := by
    cases hc : c.alpha with
    | none => rw [readAlpha, sampleOf, hc, Option.map_none]
    | some a =>
        rw [sampleOf, hc, Option.map_some]
        exact bind_eq_ok.mpr ⟨_, ((halpha a hc).readHexByte hdigits).1, rfl⟩
  rw [read, dropWhile_digits hdigits, h]
  exact bind_eq_ok.mpr ⟨_, hred, bind_eq_ok.mpr ⟨_, hgreen, bind_eq_ok.mpr ⟨_, hblue,
    bind_eq_ok.mpr ⟨_, hread, map_some_eq_ok.mpr (Sample.ofIntegers_eq_ok_iff.mpr
      ⟨⟨hfinite hred', hfinite hgreen', hfinite hblue'⟩, rfl⟩)⟩⟩⟩⟩

lemma spec_of_read {digits : Text} (hdigits : ∀ d ∈ digits, isHexDigit d = true) {c : Sample}
    (h : read ('#' :: digits) = .ok (some c)) : c.IsIntegral ∧ c.AlphaNonneg := by
  cases hfound : components? digits with
  | none =>
      rw [read, dropWhile_digits hdigits, hfound] at h
      exact absurd h (by simp)
  | some found =>
      obtain ⟨hred, hgreen, hblue, -⟩ := isPair_of_components? hfound
      have hfinite {s : Text} (hs : IsPair digits s) : (ofInt (hexValue s : ℤ)).isFinite = true :=
        isFinite_ofInt ⟨by omega, by exact_mod_cast (hs.readHexByte hdigits).2⟩
      rw [read_eq hdigits hfound] at h
      rw [← Option.some.inj (Except.ok.inj h)]
      refine ⟨⟨_, _, _, hfinite hred, hfinite hgreen, hfinite hblue, rfl⟩, fun a ha => ?_⟩
      obtain ⟨s, -, rfl⟩ := Option.map_eq_some_iff.mp ha
      have hsigned : (ofInt (hexValue s : ℤ)).Unsigned := by
        rw [ofInt, decide_eq_false (by omega)]
        exact unsigned_round _ _
      have hbyte : (0 : ℚ) < (255 : Binary64).value := by
        rw [value_ofNat (by norm_num)]
        norm_num
      exact (hsigned.div hbyte).nonneg

end Hex

/-! ### Literals -/

lemma isHexDigit_of_mem_lower {digits : Text} (h : ∀ d ∈ digits, isHexDigit d = true) :
    ∀ d ∈ Text.lower digits, isHexDigit d = true := by
  intro d hd
  obtain ⟨d', hd', rfl⟩ := List.mem_map.mp hd
  exact isHexDigit_lowerLetter (h d' hd')

/-- Trimming takes nothing off hexadecimal digits. -/
lemma readText_hex {digits : Text} (hdigits : ∀ d ∈ digits, isHexDigit d = true) :
    (Literal.mk .hex ('#' :: digits)).readText = '#' :: Text.lower digits := by
  have hlower : Text.lower ('#' :: digits) = '#' :: Text.lower digits := rfl
  rw [Literal.readText, hlower]
  refine Text.trim_eq_self (Text.stops_cons.mpr (by decide)) fun c hc => ?_
  have hmem : c ∈ '#' :: Text.lower digits := mem_of_mem_head?_reverse hc
  rcases List.mem_cons.mp hmem with rfl | hmem
  · decide
  · exact isBlank_of_isHexDigit (isHexDigit_of_mem_lower hdigits c hmem)

variable [Elementary]

/-- The colour of a literal has integer channels and no negative alpha. -/
theorem IsLiteral.sample_spec {rest : Text} {l : Literal} (h : IsLiteral rest l.form l.text)
    {c : Sample} (hc : l.sample = .ok (some c)) : c.IsIntegral ∧ c.AlphaNonneg := by
  by_cases hform : l.form = .hex
  · obtain ⟨form, text⟩ := l
    cases hform
    cases h with
    | function hword => exact absurd hword (by simp [Form.keywords])
    | @hex digits hmin hmax hdigits hstop =>
        rw [Literal.sample_eq, readText_hex hdigits] at hc
        exact Hex.spec_of_read (isHexDigit_of_mem_lower hdigits) hc
  · exact Form.spec_of_read hform hc

/-- A literal that denotes a colour converts to the text of the clamped colour. -/
lemma Literal.outcome_of_sample {l : Literal} {s c : Sample} (hs : l.sample = .ok (some s))
    (hc : s.clamped = .ok c) (target : Form) (functional : Bool) :
    l.outcome target functional = some <$> target.write c functional := by
  rw [Literal.outcome, hs]
  change (s.clamped >>= fun c => some <$> target.write c functional) = _
  rw [hc]
  rfl

/-- A literal that denotes a colour converts to every form. -/
theorem IsLiteral.exists_outcome [Elementary.IsAccurate] {rest : Text} {l : Literal}
    (h : IsLiteral rest l.form l.text)
    {s : Sample} (hs : l.sample = .ok (some s)) (target : Form) (functional : Bool) :
    ∃ text, l.outcome target functional = .ok (some text) := by
  obtain ⟨hintegral, hnonneg⟩ := h.sample_spec hs
  obtain ⟨c, hc⟩ : ∃ c, s.clamped = .ok c := by
    obtain ⟨red, green, blue, -, -, -, hc⟩ := hintegral.clamped_eq
    exact ⟨_, hc⟩
  obtain ⟨hgamut, halpha⟩ := Sample.inGamut_of_clamped hc
  have hnonneg' : c.AlphaNonneg := by
    rw [Sample.AlphaNonneg, halpha]
    exact hnonneg
  obtain ⟨text, htext⟩ := target.exists_write hgamut hnonneg' functional
  rw [Literal.outcome_of_sample hs hc, htext]
  exact ⟨text, rfl⟩

/-- A literal converts only if it denotes a colour. -/
lemma Literal.exists_sample {l : Literal} {target : Form} {functional : Bool} {text : Text}
    (h : l.outcome target functional = .ok (some text)) : ∃ s, l.sample = .ok (some s) := by
  obtain ⟨found, hfound, h⟩ := bind_eq_ok.mp h
  cases found with
  | none => exact absurd (Except.ok.inj h) (by simp)
  | some s => exact ⟨s, hfound⟩

end Swatch
