import Swatch.Proofs.Literal.Stable
/-!
Hexadecimal digits that are written in hexadecimal digits.

A byte has one spelling in two digits of lower case, so what is written of digits are the digits
that were read: in lower case, each of three or four of them twice, and without an alpha that makes
the colour opaque.

* `Hex.doubled`, `Hex.withoutOpaque`: digits in full, and digits without an opaque alpha.
* `Hex.byteText_hexValue`: a pair of digits spells the byte that it denotes.
* `Hex.outcome_of_components?`: what digits are written as.
* `Hex.convertWith_eq_normalDigits`: what digits are converted to, by their number.
* `Color.convert_hexDigits`: the same of the digits as a document, which a second conversion leaves
  alone.
-/

namespace Swatch

open Binary64 Parts

namespace Hex

/-! ### The normal form -/

/-- Each digit twice. -/
def doubled (digits : Text) : Text := digits.flatMap fun d => [d, d]

lemma length_doubled (digits : Text) : (doubled digits).length = 2 * digits.length := by
  simp [doubled, Nat.mul_comm]

/-- Eight digits in lower case without the last two, if these are the alpha of an opaque colour. -/
def withoutOpaque (digits : Text) : Text :=
  if digits.drop 6 = "ff".toList then digits.take 6 else digits

/-- What digits are written as: digits of another number than three, four, six or eight are no
colour. -/
def normalDigits (digits : Text) : Text :=
  if digits.length ∈ [3, 4, 6, 8] then
    withoutOpaque (if digits.length ≤ 4 then doubled (Text.lower digits) else Text.lower digits)
  else digits

/-- The digits that components were read from, each of three or four of them twice. -/
def spelled (c : Components) : Text := c.first ++ c.second ++ c.third ++ c.alpha.getD []

/-- Digits have components by their number. -/
lemma components?_cases (digits : Text) :
    (components? digits = none ∧ digits.length ∉ [3, 4, 6, 8]) ∨
      ∃ c, components? digits = some c ∧ digits.length ∈ [3, 4, 6, 8] ∧
        spelled c = if digits.length ≤ 4 then doubled digits else digits := by
  unfold components?
  split
  · exact Or.inr ⟨_, rfl, by simp, rfl⟩
  · exact Or.inr ⟨_, rfl, by simp, rfl⟩
  · exact Or.inr ⟨_, rfl, by simp, rfl⟩
  · exact Or.inr ⟨_, rfl, by simp, rfl⟩
  · next h3 h4 h6 h8 =>
    refine Or.inl ⟨rfl, fun hlength => ?_⟩
    match digits, hlength with
    | [r, g, b], _ => exact h3 r g b rfl
    | [r, g, b, a], _ => exact h4 r g b a rfl
    | [r, r', g, g', b, b'], _ => exact h6 r r' g g' b b' rfl
    | [r, r', g, g', b, b', a, a'], _ => exact h8 r r' g g' b b' a a' rfl

/-! ### Pairs of digits -/

lemma exists_digitChar {d : Char} (h : isLowerHexDigit d = true) :
    ∃ n < 16, Nat.digitChar n = d := by
  have hascii : ∀ k < 128, isLowerHexDigit (Char.ofNat k) = true →
      ∃ n < 16, Nat.digitChar n = Char.ofNat k := by decide
  have hd := isHexDigit_iff.mp (isHexDigit_of_isLowerHexDigit h)
  have hself := Char.ofNat_toNat d
  rw [← hself] at h ⊢
  exact hascii d.toNat (by omega) h

/-- A pair of digits in lower case spells the byte that it denotes. -/
lemma byteText_hexValue {digits s : Text} (h : IsPair digits s)
    (hdigits : ∀ d ∈ digits, isLowerHexDigit d = true) : byteText (hexValue s : ℤ) = s := by
  have hpairs : ∀ m < 16, ∀ n < 16,
      byteText (hexValue [Nat.digitChar m, Nat.digitChar n] : ℤ)
        = [Nat.digitChar m, Nat.digitChar n] := by decide
  obtain ⟨c, d, rfl⟩ := List.length_eq_two.mp h.length_eq
  obtain ⟨m, hm, rfl⟩ := exists_digitChar (hdigits c (h.mem c (by simp)))
  obtain ⟨n, hn, rfl⟩ := exists_digitChar (hdigits d (h.mem d (by simp)))
  exact hpairs m hm n hn

/-- A digit in lower case is one of the lower-case digits. -/
lemma isLowerHexDigit_lowerLetter {d : Char} (h : isHexDigit d = true) :
    isLowerHexDigit (lowerLetter d) = true := by
  have hascii : ∀ k < 128, isHexDigit (Char.ofNat k) = true →
      isLowerHexDigit (lowerLetter (Char.ofNat k)) = true := by decide
  have hd := isHexDigit_iff.mp h
  have hself := Char.ofNat_toNat d
  rw [← hself] at h ⊢
  exact hascii d.toNat (by omega) h

lemma isLowerHexDigit_of_mem_lower {digits : Text} (hdigits : ∀ d ∈ digits, isHexDigit d = true) :
    ∀ d ∈ Text.lower digits, isLowerHexDigit d = true := by
  intro d hd
  obtain ⟨d', hd', rfl⟩ := List.mem_map.mp hd
  exact isLowerHexDigit_lowerLetter (hdigits d' hd')

/-! ### Written digits -/

section Components

variable {digits : Text} {c : Components}

/-- The bytes of pairs of digits. -/
lemma exists_bytes_of_components? (h : components? digits = some c)
    (hdigits : ∀ d ∈ digits, isHexDigit d = true) : ∃ b : Bytes,
      (b.red = hexValue c.first ∧ b.green = hexValue c.second ∧ b.blue = hexValue c.third) ∧
        sampleOf c
          = b.sample ((c.alpha.map fun a => (hexValue a : ℤ)).map fun k => ofInt k / 255) := by
  obtain ⟨hred, hgreen, hblue, -⟩ := isPair_of_components? h
  have hbyte {s : Text} (hs : IsPair digits s) : 0 ≤ (hexValue s : ℤ) ∧ (hexValue s : ℤ) ≤ 255 :=
    ⟨by omega, by exact_mod_cast (hs.readHexByte hdigits).2⟩
  refine ⟨⟨_, _, _, hbyte hred, hbyte hgreen, hbyte hblue⟩, ⟨rfl, rfl, rfl⟩, ?_⟩
  rw [sampleOf, Option.map_map]
  rfl

/-- The alpha of pairs of digits is left out if it makes the colour opaque. -/
lemma hexDigits_eq_withoutOpaque (h : components? digits = some c)
    (hdigits : ∀ d ∈ digits, isLowerHexDigit d = true) {b : Bytes}
    (hb : b.red = hexValue c.first ∧ b.green = hexValue c.second ∧ b.blue = hexValue c.third)
    {n : Option ℤ} (hn : n = c.alpha.map fun a => (hexValue a : ℤ)) :
    b.hexDigits (if n = some 255 then none else n) = withoutOpaque (spelled c) := by
  obtain ⟨hred, hgreen, hblue, halpha⟩ := isPair_of_components? h
  have hchannels : (c.first ++ c.second ++ c.third).length = 6 := by
    simp [hred.length_eq, hgreen.length_eq, hblue.length_eq]
  have hdrop : (spelled c).drop 6 = c.alpha.getD [] := by
    rw [spelled, ← hchannels, List.drop_left]
  have htake : (spelled c).take 6 = c.first ++ c.second ++ c.third := by
    rw [spelled, ← hchannels, List.take_left]
  rw [withoutOpaque, hdrop, htake, Bytes.hexDigits, hb.1, hb.2.1, hb.2.2,
    byteText_hexValue hred hdigits, byteText_hexValue hgreen hdigits,
    byteText_hexValue hblue hdigits, hn]
  cases hc : c.alpha with
  | none => simp [spelled, hc]
  | some a =>
      have hself := byteText_hexValue (halpha a hc) hdigits
      -- the digits of an opaque alpha are the only ones of their value
      have hopaque : (hexValue a : ℤ) = 255 ↔ a = "ff".toList := by
        constructor
        · intro hvalue
          rw [← hself, hvalue]
          decide
        · rintro rfl
          decide
      simp only [Option.map_some, Option.some.injEq, Option.getD_some, hopaque]
      split_ifs with hff
      · simp
      · simp [spelled, hc, hself]

/-- What digits are written as. -/
theorem outcome_of_components? [Elementary] (hdigits : ∀ d ∈ digits, isHexDigit d = true)
    (h : components? (Text.lower digits) = some c) :
    (Literal.mk .hex ('#' :: digits)).outcome .hex true
      = .ok (some ('#' :: withoutOpaque (spelled c))) := by
  have hlower := isHexDigit_of_mem_lower hdigits
  obtain ⟨b, hb, hsampleOf⟩ := exists_bytes_of_components? h hlower
  have hread : read ('#' :: Text.lower digits) = .ok (some (sampleOf c)) := read_eq hlower h
  have hsample : (Literal.mk .hex ('#' :: digits)).sample = .ok (some (sampleOf c)) := by
    rw [Literal.sample_eq, readText_hex hdigits]
    exact hread
  have hnonneg := (spec_of_read hlower hread).2
  obtain ⟨-, -, -, halpha⟩ := isPair_of_components? h
  have hn : ∀ k ∈ c.alpha.map fun a => (hexValue a : ℤ), 0 ≤ k ∧ k ≤ 255 := by
    intro k hk
    obtain ⟨a, ha, rfl⟩ := Option.map_eq_some_iff.mp hk
    exact ⟨by omega, by exact_mod_cast ((halpha a ha).readHexByte hlower).2⟩
  rw [hsampleOf] at hsample hnonneg
  have htext := alphaText_reread hn (b.alpha_sample _) hnonneg
  rw [Literal.outcome_of_sample hsample b.clamped_sample]
  refine map_some_eq_ok.mpr ((b.write_hex htext).trans ?_)
  rw [hexDigits_eq_withoutOpaque h (isLowerHexDigit_of_mem_lower hdigits) hb rfl]

end Components

/-- What digits are converted to, whatever their number. -/
theorem convertWith_eq_normalDigits [Elementary] {digits : Text}
    (hdigits : ∀ d ∈ digits, isHexDigit d = true) :
    ((Literal.mk .hex ('#' :: digits)).convertWith ⟨Form.hex.name, true⟩).value
      = '#' :: normalDigits digits := by
  rcases components?_cases (Text.lower digits) with ⟨hnone, hnumber⟩ | ⟨c, hc, hnumber, hspelled⟩
  · have hsample : (Literal.mk .hex ('#' :: digits)).sample = .ok none := by
      rw [Literal.sample_eq, readText_hex hdigits]
      change read ('#' :: Text.lower digits) = .ok none
      rw [read, dropWhile_digits (isHexDigit_of_mem_lower hdigits), hnone]
    have houtcome : (Literal.mk .hex ('#' :: digits)).outcome .hex true = .ok none := by
      rw [Literal.outcome, hsample]
      rfl
    rw [Text.length_lower] at hnumber
    rw [Literal.value_convertWith_name, houtcome, normalDigits, if_neg hnumber]
  · rw [Text.length_lower] at hnumber hspelled
    rw [Literal.value_convertWith_name, outcome_of_components? hdigits hc, normalDigits,
      if_pos hnumber, hspelled]

/-! ### A second conversion -/

/-- Six digits in lower case, or eight that do not end with an opaque alpha. -/
structure IsNormal (digits : Text) : Prop where
  lower_eq : Text.lower digits = digits
  length_mem : digits.length = 6 ∨ digits.length = 8 ∧ digits.drop 6 ≠ "ff".toList

lemma IsNormal.normalDigits_eq {digits : Text} (h : IsNormal digits) :
    normalDigits digits = digits := by
  rcases h.length_mem with hsix | ⟨height, hopaque⟩
  · have hdrop : digits.drop 6 = [] := List.drop_eq_nil_of_le hsix.le
    simp [normalDigits, hsix, h.lower_eq, withoutOpaque, hdrop]
  · have hsame : withoutOpaque digits = digits := if_neg hopaque
    simp [normalDigits, height, h.lower_eq, hsame]

/-- Six or eight digits in lower case are in normal form without an opaque alpha. -/
lemma isNormal_withoutOpaque {digits : Text} (hlower : Text.lower digits = digits)
    (hlength : digits.length = 6 ∨ digits.length = 8) : IsNormal (withoutOpaque digits) := by
  rw [withoutOpaque]
  split_ifs with hff
  · refine ⟨?_, Or.inl ?_⟩
    · rw [Text.lower, List.map_take]
      exact congrArg (List.take 6) hlower
    · rw [List.length_take]
      omega
  · refine ⟨hlower, hlength.imp_right fun height => ⟨height, hff⟩⟩

/-- The normal form of digits is its own. -/
theorem normalDigits_normalDigits (digits : Text) :
    normalDigits (normalDigits digits) = normalDigits digits := by
  by_cases hnumber : digits.length ∈ [3, 4, 6, 8]
  · have hmem : digits.length = 3 ∨ digits.length = 4 ∨ digits.length = 6 ∨ digits.length = 8 := by
      simpa using hnumber
    have hnormal : IsNormal (normalDigits digits) := by
      rw [normalDigits, if_pos hnumber]
      refine isNormal_withoutOpaque ?_ ?_
      · split_ifs
        · simp only [doubled, Text.lower, List.map_flatMap, List.flatMap_map]
          simp
        · exact Text.lower_lower digits
      · split_ifs with hfew
        · rw [length_doubled, Text.length_lower]
          omega
        · rw [Text.length_lower]
          omega
    exact hnormal.normalDigits_eq
  · have hself : normalDigits digits = digits := if_neg hnumber
    rw [hself, hself]

lemma mem_of_mem_withoutOpaque {digits : Text} {d : Char} (h : d ∈ withoutOpaque digits) :
    d ∈ digits := by
  rw [withoutOpaque] at h
  split_ifs at h
  · exact List.mem_of_mem_take h
  · exact h

/-- The normal form of the digits of a literal makes up a literal too. -/
lemma isLiteral_normalDigits {digits : Text} (hmin : 3 ≤ digits.length) (hmax : digits.length ≤ 8)
    (hdigits : ∀ d ∈ digits, isHexDigit d = true) :
    (∀ d ∈ normalDigits digits, isHexDigit d = true) ∧
      IsLiteral [] .hex ('#' :: normalDigits digits) := by
  have hlower := isHexDigit_of_mem_lower hdigits
  have hmem : ∀ d ∈ normalDigits digits, isHexDigit d = true := by
    intro d hd
    rw [normalDigits] at hd
    split_ifs at hd
    · obtain ⟨d', hd', hdd⟩ := List.mem_flatMap.mp (mem_of_mem_withoutOpaque hd)
      have hsame : d = d' := by simpa using hdd
      exact hlower d (hsame ▸ hd')
    · exact hlower d (mem_of_mem_withoutOpaque hd)
    · exact hdigits d hd
  have hlength : 3 ≤ (normalDigits digits).length ∧ (normalDigits digits).length ≤ 8 := by
    have hcut (s : Text) : (withoutOpaque s).length = s.length ∨
        (withoutOpaque s).length = 6 ∧ s.length = 8 := by
      rw [withoutOpaque]
      split_ifs with hff
      · have hlong := congrArg List.length hff
        rw [List.length_drop, show "ff".toList.length = 2 from rfl] at hlong
        rw [List.length_take]
        omega
      · exact Or.inl rfl
    have hfew := hcut (doubled (Text.lower digits))
    have hmany := hcut (Text.lower digits)
    rw [length_doubled, Text.length_lower] at hfew
    rw [Text.length_lower] at hmany
    rw [normalDigits]
    split_ifs <;> omega
  exact ⟨hmem, isLiteral_digits hlength.1 hlength.2 hmem⟩

end Hex

namespace Document

/-- Digits are converted as a document as they are by themselves. -/
lemma value_convert_digits [Elementary] {digits : Text} (h : IsLiteral [] .hex ('#' :: digits))
    (hdigits : ∀ d ∈ digits, isHexDigit d = true) :
    (convert ⟨Form.hex.name, true⟩ ('#' :: digits)).value = '#' :: Hex.normalDigits digits := by
  rw [value_convert_of_isLiteral h, Hex.convertWith_eq_normalDigits hdigits]

/-- **Hexadecimal digits to hexadecimal digits**: six or eight digits of a literal are written in
lower case, and three or four in lower case and each twice, without an alpha if its digits are those
of an opaque colour.  Five or seven digits stay as they are.  As a document the literal becomes the
same, and a second conversion changes nothing. -/
theorem convert_hexDigits [Elementary] {digits : Text} (hmin : 3 ≤ digits.length)
    (hmax : digits.length ≤ 8)
    (hdigits : ∀ d ∈ digits, isHexDigit d = true) : ∃ t,
      ((Literal.mk .hex ('#' :: digits)).convertWith ⟨Form.hex.name, true⟩).value = '#' :: t ∧
      (digits.length = 6 ∨ digits.length = 8 → t = Hex.withoutOpaque (Text.lower digits)) ∧
      (digits.length = 3 ∨ digits.length = 4 →
        t = Hex.withoutOpaque (Hex.doubled (Text.lower digits))) ∧
      (digits.length = 5 ∨ digits.length = 7 → t = digits) ∧
      ((Literal.mk .hex ('#' :: t)).convertWith ⟨Form.hex.name, true⟩).value = '#' :: t ∧
      (convert ⟨Form.hex.name, true⟩ ('#' :: digits)).value = '#' :: t ∧
      (convert ⟨Form.hex.name, true⟩ ('#' :: t)).value = '#' :: t := by
  have hliteral : IsLiteral [] .hex ('#' :: digits) :=
    .hex hmin hmax hdigits (Or.inr (Text.stops_nil _))
  obtain ⟨hnormal, hliteral'⟩ := Hex.isLiteral_normalDigits hmin hmax hdigits
  have hagain := Hex.normalDigits_normalDigits digits
  refine ⟨Hex.normalDigits digits, Hex.convertWith_eq_normalDigits hdigits, ?_, ?_, ?_, ?_, ?_, ?_⟩
  · rintro (h | h) <;> simp [Hex.normalDigits, h]
  · rintro (h | h) <;> simp [Hex.normalDigits, h]
  · rintro (h | h) <;> simp [Hex.normalDigits, h]
  · rw [Hex.convertWith_eq_normalDigits hnormal, hagain]
  · exact value_convert_digits hliteral hdigits
  · rw [value_convert_digits hliteral' hnormal, hagain]

/-- Four digits of mixed case, whose alpha is opaque. -/
theorem convert_hexDigits_opaque :
    (3 ≤ "0aCf".toList.length ∧ "0aCf".toList.length ≤ 8 ∧
        ∀ d ∈ "0aCf".toList, isHexDigit d = true) ∧
      (convert ⟨Form.hex.name, true⟩ "#0aCf".toList).value = "#00aacc".toList ∧
      (convert ⟨Form.hex.name, true⟩ "#00aacc".toList).value = "#00aacc".toList := by
  have hdigits : ∀ d ∈ "0aCf".toList, isHexDigit d = true := by decide
  obtain ⟨t, -, -, hfew, -, -, hconvert, hagain⟩ :=
    convert_hexDigits (show 3 ≤ "0aCf".toList.length by decide) (by decide) hdigits
  obtain rfl : t = "00aacc".toList := (hfew (Or.inr rfl)).trans (by decide)
  exact ⟨⟨by decide, by decide, hdigits⟩, hconvert, hagain⟩

end Document

end Swatch
