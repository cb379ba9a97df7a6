import Swatch.Proofs.Document.Single
import Swatch.Proofs.Form.Alpha
import Swatch.Proofs.Literal.HexDigits
/-!
Hexadecimal digits by way of an `rgb` function.

The channels of the digits are bytes and come back as they are.  The alpha is a part of 255, of
which the function shows the nearest number of hundredths.  Read again that is a part of 255 less
than two steps away, so that the byte that comes back is at most one off.  An alpha shown as one is
not written again, which stands for the last byte.

* `Hex.alphaByte`, `Hex.IsSpelling`: the alpha of components as a byte, and the bytes that
  components spell.
* `Hex.exists_alphaText_byte`, `Hex.exists_alphaText_hundredths`: a byte shown in hundredths, and
  hundredths written as a byte.
* `Bytes.exists_alphaBack`: what comes back of an alpha.
* `Hex.rgb_roundTrip`: what comes back of hexadecimal digits.
-/

namespace Swatch

open Binary64 Decimal Parts

namespace Hex

/-! ### Digits as bytes -/

/-- The alpha of components as a byte: without one a colour is opaque. -/
def alphaByte (c : Components) : Nat := (c.alpha.map hexValue).getD 255

/-- Components are the digits of bytes, and of the byte of an alpha if there is one. -/
structure IsSpelling (b : Bytes) (k : Option ℤ) (c : Components) : Prop where
  first : (hexValue c.first : ℤ) = b.red
  second : (hexValue c.second : ℤ) = b.green
  third : (hexValue c.third : ℤ) = b.blue
  alpha : (alphaByte c : ℤ) = k.getD 255

/-- Bytes are spelled by their digits. -/
lemma isSpelling_byteText (b : Bytes) {k : Option ℤ} (hk : ∀ j ∈ k, 0 ≤ j ∧ j ≤ 255) :
    IsSpelling b k ⟨byteText b.red, byteText b.green, byteText b.blue, k.map byteText⟩ := by
  refine ⟨cast_hexValue_byteText b.red_mem, cast_hexValue_byteText b.green_mem,
    cast_hexValue_byteText b.blue_mem, ?_⟩
  cases k with
  | none => rfl
  | some j => exact cast_hexValue_byteText (hk j rfl)

/-- The components of digits in lower case. -/
lemma components?_lower {digits : Text} {c : Components} (h : components? digits = some c) :
    components? (Text.lower digits) = some ⟨Text.lower c.first, Text.lower c.second,
      Text.lower c.third, c.alpha.map Text.lower⟩ := by
  rw [components?.eq_def] at h
  split at h <;> simp only [Option.some.injEq, reduceCtorEq] at h <;> subst h <;> rfl

/-- Digits denote the bytes that they spell. -/
lemma exists_isSpelling [Elementary] {digits : Text} {c : Components}
    (h : components? digits = some c)
    (hdigits : ∀ d ∈ digits, isHexDigit d = true) :
    ∃ (b : Bytes) (k : Option ℤ), (∀ j ∈ k, 0 ≤ j ∧ j ≤ 255) ∧ IsSpelling b k c ∧
      (Literal.mk .hex ('#' :: digits)).sample
        = .ok (some (b.sample (k.map fun j => ofInt j / 255))) := by
  obtain ⟨hred, hgreen, hblue, halpha⟩ := isPair_of_components? h
  -- the digits are read in lower case, where they have the same values
  have hlower := isHexDigit_of_mem_lower hdigits
  have hvalue {s : Text} (hs : IsPair digits s) : hexValue (Text.lower s) = hexValue s :=
    hexValue_lower fun d hd => hdigits d (hs.mem d hd)
  obtain ⟨b, ⟨hbred, hbgreen, hbblue⟩, hsample⟩ :=
    exists_bytes_of_components? (components?_lower h) hlower
  rw [hvalue hred] at hbred
  rw [hvalue hgreen] at hbgreen
  rw [hvalue hblue] at hbblue
  have hmap : ((c.alpha.map Text.lower).map fun a => (hexValue a : ℤ))
      = c.alpha.map fun a => (hexValue a : ℤ) := by
    cases ha : c.alpha with
    | none => rfl
    | some a => exact congrArg (fun n : Nat => some (n : ℤ)) (hvalue (halpha a ha))
  refine ⟨b, c.alpha.map fun a => (hexValue a : ℤ), fun j hj => ?_,
    ⟨hbred.symm, hbgreen.symm, hbblue.symm, ?_⟩, ?_⟩
  · obtain ⟨a, ha, rfl⟩ := Option.map_eq_some_iff.mp hj
    exact ⟨by omega, by exact_mod_cast ((halpha a ha).readHexByte hdigits).2⟩
  · rw [alphaByte]
    cases c.alpha <;> rfl
  · rw [← hmap, ← hsample, Literal.sample_eq, readText_hex hdigits]
    exact read_eq hlower (components?_lower h)

/-! ### Bytes and hundredths -/

/-- A byte is shown as the nearest number of hundredths. -/
lemma exists_alphaText_byte {k : ℤ} (hk : 0 ≤ k ∧ k ≤ 254) {s : Sample}
    (ha : s.alpha = some (ofInt k / 255)) (h0 : s.AlphaNonneg) :
    ∃ n : Nat, n ≤ 100 ∧ |(n : ℚ) / 100 - k / 255| ≤ 1 / 200 + 1 / 2 ^ 20 ∧
      Layout.alphaText s = .ok (some (hundredthsText n)) := by
  obtain ⟨hnear, hone⟩ := near_byte hk
  obtain ⟨n, hn, hlow, hhigh, htext⟩ := Sample.exists_hundredths ha (h0 _ ha) hone
  refine ⟨n, hn, ?_, htext⟩
  obtain ⟨hbelow, habove⟩ := abs_le.mp (hnear.abs_sub_le_of_le (by norm_num))
  push_cast at hbelow habove
  rw [abs_le]
  constructor <;> linarith

/-- A number of hundredths is written as the nearest byte, and not at all if it is one. -/
lemma exists_alphaText_hundredths {n : Nat} (hn : n ≤ 100) {x : Binary64}
    (hx : IsRounded ((n : ℚ) / 100) x) {s : Sample} (ha : s.alpha = some x) :
    ∃ m : Option ℤ, (∀ j ∈ m, 0 ≤ j ∧ j ≤ 255) ∧ (m = none ↔ n = 100) ∧
      |((m.getD 255 : ℤ) : ℚ) - 255 * (n / 100)| ≤ 1 / 2 + 1 / 2 ^ 20 ∧
      alphaText s = .ok ((m.map byteText).getD []) := by
  rcases hn.lt_or_eq with hlt | rfl
  · have hn' : (n : ℚ) ≤ 99 := by exact_mod_cast Nat.le_of_lt_succ hlt
    have hpart : |(n : ℚ) / 100| ≤ (1 : Nat) := by
      rw [abs_of_nonneg (by positivity), Nat.cast_one, div_le_one (by norm_num)]
      linarith
    have hnear : Near 1 ((n : ℚ) / 100) x :=
      hx.near (k := 0) (by simp) (by norm_num) (hpart.trans (by norm_num))
    have hone : x < 1 := hnear.lt_one (by norm_num) (by linarith)
    have hbyte : |((255 : Nat) : ℚ)| ≤ (255 : Nat) := (abs_of_nonneg (by positivity)).le
    have hproduct := hnear.mul (near_ofNat (n := 255) (by norm_num)) hpart hbyte (by norm_num)
      (by norm_num) (by norm_num) (by norm_num)
    obtain ⟨hbelow, habove⟩ := abs_le.mp (hproduct.abs_sub_le_of_le (by norm_num))
    push_cast at hbelow habove
    have h0 : 0 ≤ x := by
      rw [le_iff (isFinite_ofNat (by norm_num)) hnear.isFinite, value_ofNat (by norm_num)]
      exact_mod_cast hx.value_nonneg (by positivity)
    obtain ⟨m, hm, hlow, hhigh, htext⟩ := exists_alphaByte ha h0 hone
    refine ⟨some m, by simpa using hm, by simp [hlt.ne], ?_, htext⟩
    rw [Option.getD_some, abs_le]
    constructor <;> linarith
  · have hhundred : ((100 : Nat) : ℚ) / 100 = 1 := by norm_num
    rw [hhundred] at hx
    refine ⟨none, by simp, by simp, by norm_num, ?_⟩
    rw [alphaText, ha]
    exact if_neg hx.not_lt_one

end Hex

/-! ### There and back -/

/-- What comes back of an alpha: it is shown in hundredths, and these are read and written as a byte
that is at most one off.  The last two bytes are not written. -/
lemma Bytes.exists_alphaBack (c : Bytes) {k : Option ℤ} (hk : ∀ j ∈ k, 0 ≤ j ∧ j ≤ 255)
    (h0 : (c.sample (k.map fun j => ofInt j / 255)).AlphaNonneg) :
    ∃ (n : Option Nat) (a : Option Binary64) (m : Option ℤ),
      Layout.alphaText (c.sample (k.map fun j => ofInt j / 255)) = .ok (n.map hundredthsText) ∧
      readAlpha (n.map hundredthsText) = .ok a ∧
      Hex.alphaText (c.sample a) = .ok ((m.map Hex.byteText).getD []) ∧
      (∀ j ∈ m, 0 ≤ j ∧ j ≤ 255) ∧ |m.getD 255 - k.getD 255| ≤ 1 ∧
      (m = none ↔ 254 ≤ k.getD 255) := by
  by_cases hfull : k.getD 255 = 255
  · refine ⟨none, none, none, ?_, rfl, ?_, by simp, by simp [hfull], by simp [hfull]⟩
    · rw [Layout.alphaText, c.alpha_sample]
      cases k with
      | none => rfl
      | some j =>
          obtain rfl : j = 255 := hfull
          exact if_neg Hex.not_lt_one_byte
    · rw [Hex.alphaText, c.alpha_sample]
      rfl
  · obtain ⟨j, rfl⟩ : ∃ j, k = some j := by
      cases k with
      | none => exact absurd rfl hfull
      | some j => exact ⟨j, rfl⟩
    rw [Option.getD_some] at hfull ⊢
    have hj := hk j rfl
    obtain ⟨n, hn, hhundredths, htext⟩ :=
      Hex.exists_alphaText_byte (k := j) (by omega) (c.alpha_sample _) h0
    obtain ⟨x, hround, -, -, hx, -⟩ := exists_readAlpha_hundredthsText n
    obtain ⟨m, hm, hnone, hbyte, htext'⟩ :=
      Hex.exists_alphaText_hundredths hn hround (c.alpha_sample (some x))
    obtain ⟨hlow, hhigh⟩ := abs_le.mp hhundredths
    obtain ⟨hlow', hhigh'⟩ := abs_le.mp hbyte
    refine ⟨some n, some x, m, htext, hx, htext', hm, ?_, hnone.trans ⟨?_, fun hlast => ?_⟩⟩
    · -- a hundredth is less than three bytes, so that half of one and half a byte are less than two
      have hlt : |((m.getD 255 - j : ℤ) : ℚ)| < 2 := by
        push_cast
        rw [abs_lt]
        constructor <;> linarith
      have hlt' : |m.getD 255 - j| < 2 := by exact_mod_cast hlt
      omega
    · rintro rfl
      have hlarge : ((253 : ℤ) : ℚ) < j := by
        push_cast at hhigh ⊢
        linarith
      have hlarge' : 253 < j := by exact_mod_cast hlarge
      omega
    · obtain rfl : j = 254 := by omega
      have hlarge : ((99 : Nat) : ℚ) < n := by
        push_cast at hlow ⊢
        linarith
      have hlarge' : 99 < n := by exact_mod_cast hlarge
      omega

namespace Hex

/-- **By way of an `rgb` function**: three, four, six or eight hexadecimal digits convert to one,
and that converts to six or eight digits.  Red, green and blue come back as they were, and the alpha
within one, where a colour without one has that of an opaque colour.  Digits without an alpha come
back just if the alpha was one of the last two bytes. -/
theorem rgb_roundTrip [Elementary] {digits : Text} (hlength : digits.length ∈ [3, 4, 6, 8])
    (hdigits : ∀ d ∈ digits, isHexDigit d = true) :
    ∃ (function back : Text) (c c' : Components),
      components? digits = some c ∧ components? back = some c' ∧
      (Literal.mk .hex ('#' :: digits)).ConvertsTo .rgb function ∧
      (Literal.mk .rgb function).ConvertsTo .hex ('#' :: back) ∧
      (hexValue c'.first = hexValue c.first ∧ hexValue c'.second = hexValue c.second ∧
        hexValue c'.third = hexValue c.third) ∧
      |(alphaByte c' : ℤ) - alphaByte c| ≤ 1 ∧
      (∀ d ∈ back, isLowerHexDigit d = true) ∧
      back.length = if 254 ≤ alphaByte c then 6 else 8 := by
  have hliteral : IsLiteral [] (Literal.mk .hex ('#' :: digits)).form
      (Literal.mk .hex ('#' :: digits)).text := by
    have hnumber : digits.length = 3 ∨ digits.length = 4 ∨ digits.length = 6 ∨
        digits.length = 8 := by
      simpa using hlength
    exact isLiteral_digits (by omega) (by omega) hdigits
  rcases components?_cases digits with ⟨-, hnot⟩ | ⟨c, hc, -, -⟩
  · exact absurd hlength hnot
  obtain ⟨b, k, hk, hspelling, hsample⟩ := exists_isSpelling hc hdigits
  obtain ⟨n, a, m, htext, ha, htext', hm, hnear, hnone⟩ :=
    b.exists_alphaBack hk (hliteral.sample_spec hsample).2
  have hfunction : (Literal.mk .hex ('#' :: digits)).outcome .rgb true
      = .ok (some (b.rgbText (n.map hundredthsText))) := by
    rw [Literal.outcome_of_sample hsample b.clamped_sample]
    exact map_some_eq_ok.mpr (b.write_rgb htext)
  have hback : (Literal.mk .rgb (b.rgbText (n.map hundredthsText))).outcome .hex true
      = .ok (some ('#' :: b.hexDigits m)) := by
    rw [Literal.outcome_of_sample (b.sample_rgbText ha) b.clamped_sample]
    exact map_some_eq_ok.mpr (b.write_hex htext')
  have hspelling' := isSpelling_byteText b hm
  refine ⟨_, _, c, _, hc, b.components?_hexDigits hm,
    Literal.convertsTo_of_outcome hliteral hfunction,
    Literal.convertsTo_of_outcome (hliteral.isLiteral_of_outcome hfunction) hback,
    ⟨?_, ?_, ?_⟩, ?_, b.isLowerHexDigit_hexDigits hm, ?_⟩
  · exact Int.ofNat_inj.mp (hspelling'.first.trans hspelling.first.symm)
  · exact Int.ofNat_inj.mp (hspelling'.second.trans hspelling.second.symm)
  · exact Int.ofNat_inj.mp (hspelling'.third.trans hspelling.third.symm)
  · rwa [hspelling.alpha, hspelling'.alpha]
  · rw [← hspelling.alpha] at hnone
    have hlast : 254 ≤ alphaByte c ↔ m = none := by
      rw [hnone]
      exact_mod_cast Iff.rfl
    rw [b.length_hexDigits hm]
    cases m with
    | none => rw [if_pos (hlast.mpr rfl), Option.isSome_none, if_neg Bool.false_ne_true]
    | some j => rw [if_neg (mt hlast.mp (by simp)), Option.isSome_some, if_pos rfl]

/-- The last byte but one is lost: the colour comes back opaque. -/
theorem rgb_roundTrip_almostOpaque :
    ("AbCdEffe".toList.length ∈ [3, 4, 6, 8] ∧ ∀ d ∈ "AbCdEffe".toList, isHexDigit d = true) ∧
      ∃ (function back : Text) (c : Components), components? back = some c ∧
        (Literal.mk .hex "#AbCdEffe".toList).ConvertsTo .rgb function ∧
        (Literal.mk .rgb function).ConvertsTo .hex ('#' :: back) ∧
        (hexValue c.first = 171 ∧ hexValue c.second = 205 ∧ hexValue c.third = 239) ∧
        back.length = 6 ∧ alphaByte c = hexValue "fe".toList + 1 := by
  have hlength : "AbCdEffe".toList.length ∈ [3, 4, 6, 8] := by simp
  have hdigits : ∀ d ∈ "AbCdEffe".toList, isHexDigit d = true := by decide
  obtain ⟨function, back, c, c', hc, hc', hfunction, hback, ⟨hred, hgreen, hblue⟩, -, -, hsix⟩ :=
    rgb_roundTrip hlength hdigits
  obtain rfl : Components.mk "Ab".toList "Cd".toList "Ef".toList (some "fe".toList) = c :=
    Option.some.inj hc
  have hsix' : back.length = 6 := hsix
  refine ⟨⟨hlength, hdigits⟩, function, back, c', hc', hfunction, hback, ⟨hred, hgreen, hblue⟩,
    hsix', ?_⟩
  -- six digits have no components for an alpha
  match back, hsix' with
  | [_, _, _, _, _, _], _ =>
    obtain rfl := Option.some.inj hc'
    rfl

end Hex

end Swatch
