import Swatch.Proofs.Color.Companding
import Swatch.Proofs.Literal.HexDigits
/-!
What the colour of a literal can be.

Every form is read through integers, so whatever size they have, the channels that do not overflow
are integers.  Hexadecimal digits and `oklch` functions give bytes: the digits by their number, the
functions because light is clamped before it is companded, infinite light included.

* `Sample.IsIntegral.exists_value`: integer channels have integer values.
* `Oklch.exists_bytes_of_read`: an `oklch` function is read as bytes.
* `Hex.exists_read`: hexadecimal digits of any number are read, and as bytes if they are a colour.
* `Token.sample_image`: the colours that the tokens of a text denote.
-/

namespace Swatch

open Binary64 Parts

variable {c : Sample}

/-! ### Integers and bytes -/

/-- Integer channels have integer values, also where they have been rounded. -/
lemma Sample.IsIntegral.exists_value (h : c.IsIntegral) :
    ∀ x ∈ [c.red, c.green, c.blue], x.isFinite = true ∧ ∃ n : ℤ, x.value = n := by
  obtain ⟨red, green, blue, hred, hgreen, hblue, hc⟩ := h
  rw [hc, List.forall_mem_cons, List.forall_mem_cons, List.forall_mem_singleton]
  exact ⟨⟨hred, exists_int_value_ofInt hred⟩, ⟨hgreen, exists_int_value_ofInt hgreen⟩,
    ⟨hblue, exists_int_value_ofInt hblue⟩⟩

lemma Sample.AlphaNonneg.ne_nan (h : c.AlphaNonneg) :
    ∀ a ∈ c.alpha, a ≠ .nan ∧ 0 ≤ a := by
  intro a ha
  refine ⟨?_, h a ha⟩
  rintro rfl
  exact absurd (h _ ha) (by decide +kernel)

/-- Bytes lie in the gamut, so that clamping leaves them as they are. -/
lemma Bytes.clamped_of_eq_sample {b : Bytes} (h : c = b.sample c.alpha) :
    c.InGamut ∧ c.clamped = .ok c := by
  have hclamped : c.clamped = .ok c := by
    rw [h]
    exact b.clamped_sample
  exact ⟨(Sample.inGamut_of_clamped hclamped).1, hclamped⟩

/-! ### The forms that are read as bytes -/

/-- Oklab colours that have bytes have them in the range. -/
lemma Oklab.exists_bytes_of_toBytes [Elementary] [Elementary.IsAccurate] {lab : Oklab}
    {red green blue : ℤ} (h : lab.toBytes = .ok (red, green, blue)) :
    ∃ b : Bytes, b.red = red ∧ b.green = green ∧ b.blue = blue := by
  obtain ⟨r, hr, h⟩ := bind_eq_ok.mp h
  obtain ⟨g, hg, h⟩ := bind_eq_ok.mp h
  obtain ⟨b, hb, h⟩ := bind_eq_ok.mp h
  obtain ⟨rfl, rfl, rfl⟩ : r = red ∧ g = green ∧ b = blue := by
    simpa [pure, Except.pure] using h
  exact ⟨⟨r, g, b, byteOfLinear_mem hr, byteOfLinear_mem hg, byteOfLinear_mem hb⟩, rfl, rfl, rfl⟩

/-- An `oklch` function is read as bytes. -/
lemma Oklch.exists_bytes_of_read [Elementary] [Elementary.IsAccurate] {s : Text}
    (h : Oklch.read s = .ok (some c)) : ∃ b : Bytes, c = b.sample c.alpha := by
  rw [Oklch.read] at h
  split at h
  · exact absurd h (by simp)
  · next found rest _ =>
    obtain ⟨lightness, -, h⟩ := bind_eq_ok.mp h
    obtain ⟨chroma, -, h⟩ := bind_eq_ok.mp h
    obtain ⟨hue, -, h⟩ := bind_eq_ok.mp h
    obtain ⟨alpha, -, h⟩ := bind_eq_ok.mp h
    obtain ⟨⟨red, green, blue⟩, hbytes, h⟩ := bind_eq_ok.mp h
    obtain ⟨lab, -, hlab⟩ := bind_eq_ok.mp hbytes
    obtain ⟨b, rfl, rfl, rfl⟩ := Oklab.exists_bytes_of_toBytes hlab
    obtain ⟨-, hc⟩ := Sample.ofIntegers_eq_ok_iff.mp (map_some_eq_ok.mp h)
    refine ⟨b, ?_⟩
    rw [hc]
    rfl

/-- Hexadecimal digits of any number are read, and as bytes if they are a colour. -/
lemma Hex.exists_read {digits : Text} (hdigits : ∀ d ∈ digits, isHexDigit d = true) :
    ∃ found, read ('#' :: digits) = .ok found ∧
      ∀ c ∈ found, ∃ b : Bytes, c = b.sample c.alpha := by
  cases hfound : components? digits with
  | none =>
      refine ⟨none, ?_, by simp⟩
      rw [read, dropWhile_digits hdigits, hfound]
  | some components =>
      refine ⟨_, read_eq hdigits hfound, ?_⟩
      obtain ⟨b, -, hb⟩ := exists_bytes_of_components? hfound hdigits
      intro c hc
      rw [Option.mem_some_iff] at hc
      refine ⟨b, ?_⟩
      rw [← hc, hb, b.alpha_sample]

/-- A literal of hexadecimal digits is read, and as bytes if it is a colour. -/
lemma IsLiteral.exists_read_hex [Elementary] {rest text : Text} (h : IsLiteral rest .hex text) :
    ∃ found, (Literal.mk .hex text).sample = .ok found ∧
      ∀ c ∈ found, ∃ b : Bytes, c = b.sample c.alpha := by
  cases h with
  | function hword => exact absurd hword (by simp [Form.keywords])
  | @hex digits hmin hmax hdigits hstop =>
      rw [Literal.sample_eq, readText_hex hdigits]
      exact Hex.exists_read (isHexDigit_of_mem_lower hdigits)

/-! ### The tokens of a text -/

/-- **What a token denotes**: its channels are integers, also where they are too large for the
gamut, and an alpha is not negative, though it may be infinite.  Hexadecimal digits and `oklch`
functions are in the gamut, where clamping leaves them alone, and hexadecimal digits are read
whatever their number. -/
theorem Token.sample_image [Elementary] [Elementary.IsAccurate] (s : Text) (t : Token)
    (ht : t ∈ Token.scan s) : (∀ c : Sample, t.toLiteral.sample = .ok (some c) →
      (∀ x ∈ [c.red, c.green, c.blue], x.isFinite = true ∧ ∃ n : ℤ, x.value = n)
        ∧ (∀ a ∈ c.alpha, a ≠ .nan ∧ 0 ≤ a)
        ∧ (t.form = .hex ∨ t.form = .oklch → c.InGamut ∧ c.clamped = .ok c))
      ∧ (t.form = .hex → ∃ found, t.toLiteral.sample = .ok found) := by
  obtain ⟨⟨form, text⟩, start⟩ := t
  obtain ⟨rest, hl⟩ := Token.isLiteral_of_mem_scan ht
  refine ⟨fun c hc => ?_, ?_⟩
  · obtain ⟨hintegral, hnonneg⟩ := hl.sample_spec hc
    refine ⟨hintegral.exists_value, hnonneg.ne_nan, ?_⟩
    rintro (hform | hform) <;> obtain rfl : form = _ := hform
    · obtain ⟨found, hfound, hbytes⟩ := hl.exists_read_hex
      obtain rfl := Except.ok.inj (hfound.symm.trans hc)
      obtain ⟨b, hb⟩ := hbytes c rfl
      exact b.clamped_of_eq_sample hb
    · rw [Literal.sample_eq] at hc
      obtain ⟨b, hb⟩ := Oklch.exists_bytes_of_read hc
      exact b.clamped_of_eq_sample hb
  · intro hform
    obtain rfl : form = _ := hform
    obtain ⟨found, hfound, -⟩ := hl.exists_read_hex
    exact ⟨found, hfound⟩

/-- A function with an alpha of 400 digits. -/
def overflowingAlpha : Text := "rgb(300 -2 3/".toList ++ List.replicate 400 '9' ++ [')']

/-- The alpha of so many digits is infinite, and that of hexadecimal digits is finite. -/
theorem Token.sample_image_infinite :
    (let t : Token := ⟨⟨.rgb, overflowingAlpha⟩, 0⟩
      let c : Sample := ⟨300, -2, 3, some (.infinity false)⟩
      t ∈ Token.scan overflowingAlpha ∧ t.toLiteral.sample = .ok (some c) ∧
        ∀ a ∈ c.alpha, a ≠ .nan ∧ 0 ≤ a) ∧
      (let t : Token := ⟨⟨.hex, "#FF000180".toList⟩, 1⟩
        let c : Sample := ⟨255, 0, 1, some (128 / 255)⟩
        t ∈ Token.scan " #FF000180;".toList ∧ t.toLiteral.sample = .ok (some c) ∧
          c.clamped = .ok c) := by
  refine ⟨?_, ?_⟩
  · intro t c
    have ht : t ∈ Token.scan overflowingAlpha := by decide +kernel
    have hc : t.toLiteral.sample = .ok (some c) := by decide +kernel
    exact ⟨ht, hc, ((Token.sample_image _ t ht).1 c hc).2.1⟩
  · intro t c
    have ht : t ∈ Token.scan " #FF000180;".toList := by decide +kernel
    have hc : t.toLiteral.sample = .ok (some c) := by decide +kernel
    exact ⟨ht, hc, (((Token.sample_image _ t ht).1 c hc).2.2 (Or.inl rfl)).2⟩

end Swatch
