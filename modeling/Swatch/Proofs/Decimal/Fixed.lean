import Swatch.Proofs.Decimal.Trimmed
/-!
Numbers with a fixed count of decimals denote the exact value of a binary number, rounded.

A binary number is a whole number of units, so it is rounded without an error before: the nearest
multiple of a power of ten is a division of integers.  What is written are the digits of that
multiple, with a point in front of the last of them or, if they end before the point or begin far
behind it, with a point behind the first of them and an exponent of ten.

* `Decimal.Expresses`: the number that digits with a point and an exponent denote.
* `Decimal.HasDecimals`: digits with so many decimals behind a point.
* `Decimal.scaledText_plain`, `Decimal.scaledText_scientific`: the two ways of writing a rounded
  number.
* `Binary64.fixedText_spec`: a number with a fixed count of decimals.
-/

namespace Swatch

open Binary64 Parts

namespace Decimal

/-! ### Numerals -/

/-- A text is digits with at most one point, and an exponent of ten if it likes, which denote a
number. -/
inductive Expresses : Text → ℚ → Prop
  | plain {s : Text} {q : ℚ} (h : Denotes s q) : Expresses s q
  | scientific {s : Text} {q : ℚ} (h : Denotes s q) (exponent : ℤ) :
      Expresses (s ++ 'E' :: (if exponent < 0 then '-' else '+') :: digitsOf exponent.natAbs)
        (q * 10 ^ exponent)

/-- A text is digits, and behind a point so many others, or without a point if there are none. -/
inductive HasDecimals : Nat → Text → Prop
  | whole {s : Text} (hs : IsRun Char.isDigit s) : HasDecimals 0 s
  | point {s t : Text} (hs : IsRun Char.isDigit s) (ht : IsRun Char.isDigit t) :
      HasDecimals t.length (s ++ '.' :: t)

/-- No numeral begins with a sign. -/
lemma Expresses.head?_ne {s : Text} {q : ℚ} (h : Expresses s q) : s.head? ≠ some '-' := by
  have hdenotes {s : Text} {q : ℚ} (h : Denotes s q) (t : Text) : (s ++ t).head? ≠ some '-' := by
    intro hhead
    rw [List.head?_append_of_ne_nil _ h.isDecimal.1] at hhead
    exact absurd (h.isDecimal.2 _ (List.mem_of_head? hhead)) (by decide)
  cases h with
  | plain h => simpa using hdenotes h []
  | scientific h exponent => exact hdenotes h _

lemma hasDecimals_numberText (places n : Nat) : HasDecimals places (numberText places n) := by
  rw [numberText]
  split_ifs with hzero
  · rw [hzero]
    exact .whole (isRun_digitsOf n)
  · have hlength := length_lastDigits places n
    have hrun : IsRun Char.isDigit (lastDigits places n) := by
      refine ⟨fun hnil => hzero ?_, fun c hc => isDigit_of_mem_lastDigits hc⟩
      rw [← hlength, hnil]
      rfl
    have hpoint := HasDecimals.point (isRun_digitsOf (n / 10 ^ places)) hrun
    rwa [hlength] at hpoint

/-! ### Rounded numbers as they are written -/

/-- A rounded number whose leading digit stands within six places is written with its point. -/
lemma scaledText_plain {places n : Nat} (hlead : places < (digitsOf n).length + 6) :
    scaledText ⟨n, -places⟩ = numberText places n := by
  rw [numberText]
  split_ifs with hzero
  · rw [hzero, Nat.cast_zero, neg_zero, scaledText_zero]
  · exact scaledText_point (Nat.pos_of_ne_zero hzero) hlead

/-- The digits of a number with a point behind the first of them. -/
lemma numberText_digits (n : Nat) : numberText ((digitsOf n).length - 1) n
    = match digitsOf n with
      | c :: d :: rest => c :: '.' :: d :: rest
      | one => one := by
  cases hdigits : digitsOf n with
  | nil => exact absurd hdigits (isRun_digitsOf n).1
  | cons c rest =>
      cases rest with
      | nil => rw [List.length_singleton, Nat.sub_self, numberText, if_pos rfl, hdigits]
      | cons d rest =>
          rw [List.length_cons, Nat.add_sub_cancel]
          have hlength : (digitsOf n).length = (d :: rest).length + 1 := by
            rw [hdigits, List.length_cons]
          have hne : n ≠ 0 := by
            rintro rfl
            exact absurd (congrArg List.length hdigits) (by simp [digitsOf])
          have hpow := ten_pow_length_le (Nat.pos_of_ne_zero hne)
          rw [hlength, Nat.add_sub_cancel] at hpow
          have hsplit : digitsOf (n / 10 ^ (d :: rest).length) ++ lastDigits (d :: rest).length n
              = [c] ++ d :: rest := (digitsOf_append_lastDigits hpow).trans hdigits
          obtain ⟨hfirst, hlast⟩ := List.append_inj' hsplit (length_lastDigits _ n)
          rw [numberText, if_neg (by simp), pointText, hfirst, hlast]
          rfl

/-- A rounded number whose digits end before the point, or begin more than six places behind it, is
written with an exponent. -/
lemma scaledText_scientific {n : Nat} {exponent : ℤ}
    (h : 0 < exponent ∨ exponent + (digitsOf n).length ≤ -6) :
    ∃ lead : ℤ, lead = exponent + (digitsOf n).length - 1 ∧
      scaledText ⟨n, exponent⟩ = numberText ((digitsOf n).length - 1) n
        ++ 'E' :: (if lead < 0 then '-' else '+') :: digitsOf lead.natAbs := by
  refine ⟨_, rfl, ?_⟩
  have hplain : ¬ (decide (exponent ≤ 0)
      && decide (-6 < exponent + ((digitsOf n).length : ℤ))) = true := by
    rw [Bool.and_eq_true, decide_eq_true_eq, decide_eq_true_eq]
    omega
  rw [scaledText, numberText_digits]
  exact if_neg hplain

/-- An exponent is written just if there are fewer places than none, or more than six and the
number is below a millionth. -/
def IsScientific (places : ℤ) (n : Nat) : Prop :=
  places < 0 ∨ 6 < places ∧ (n : ℚ) * 10 ^ (-places) < 1 / 10 ^ 6

lemma isScientific_iff {places : ℤ} {n : Nat} : IsScientific places n ↔
    0 < -places ∨ -places + (digitsOf n).length ≤ -6 := by
  have hlength : 0 < (digitsOf n).length := Nat.length_toDigits_pos
  rcases lt_or_ge 6 places with hmany | hfew
  · obtain ⟨k, rfl⟩ : ∃ k : Nat, places = k + 6 := ⟨(places - 6).toNat, by omega⟩
    have hk : 0 < k := by omega
    have hle : (digitsOf n).length ≤ k ↔ n < 10 ^ k :=
      Nat.length_toDigits_le_iff (by norm_num) hk
    have hvalue : (n : ℚ) * 10 ^ (-((k : ℤ) + 6)) < 1 / 10 ^ 6 ↔ n < 10 ^ k := by
      rw [neg_add, zpow_add₀ (by norm_num), zpow_neg, zpow_natCast, ← mul_assoc, ← div_eq_mul_inv,
        zpow_neg, ← one_div, mul_one_div, zpow_ofNat]
      rw [div_lt_div_iff_of_pos_right (by positivity), div_lt_one (by positivity)]
      exact_mod_cast Iff.rfl
    rw [IsScientific, hvalue, ← hle]
    omega
  · rw [IsScientific]
    omega

/-- A rounded number denotes its digits over a power of ten.  It has an exponent only by the rule
for one, and with few places all of them are written. -/
theorem expresses_scaledText (n : Nat) (places : ℤ) :
    Expresses (scaledText ⟨n, -places⟩) (n * 10 ^ (-places)) ∧
      ('E' ∈ scaledText ⟨n, -places⟩ ↔ IsScientific places n) ∧
      (¬ IsScientific places n → HasDecimals places.toNat (scaledText ⟨n, -places⟩)) := by
  have hlength : 0 < (digitsOf n).length := Nat.length_toDigits_pos
  by_cases hscientific : IsScientific places n
  · obtain ⟨lead, hlead, htext⟩ := scaledText_scientific (isScientific_iff.mp hscientific)
    have hvalue : (n : ℚ) * 10 ^ (-places)
        = n / 10 ^ ((digitsOf n).length - 1) * 10 ^ lead := by
      have hexponent : lead = -places + ((digitsOf n).length - 1 : Nat) := by omega
      rw [hexponent, zpow_add₀ (by norm_num), zpow_natCast]
      field_simp
    rw [htext, hvalue]
    refine ⟨.scientific (denotes_numberText _ n) lead, ?_, fun h => absurd hscientific h⟩
    exact iff_of_true (List.mem_append_right _ List.mem_cons_self) hscientific
  · have hbound := mt isScientific_iff.mpr hscientific
    obtain ⟨k, rfl⟩ : ∃ k : Nat, places = k := ⟨places.toNat, by omega⟩
    have htext : scaledText ⟨n, -(k : ℤ)⟩ = numberText k n := scaledText_plain (by omega)
    have hvalue : (n : ℚ) * 10 ^ (-(k : ℤ)) = n / 10 ^ k := by
      rw [zpow_neg, zpow_natCast, div_eq_mul_inv]
    rw [htext, hvalue, Int.toNat_natCast]
    refine ⟨.plain (denotes_numberText k n), ?_, fun _ => hasDecimals_numberText k n⟩
    exact iff_of_false ((isDecimal_numberText k n).notMem (by decide)) hscientific

end Decimal

open Decimal

namespace Binary64

lemma lt_zero_iff {x : Binary64} (hx : x.isFinite = true) : x < 0 ↔ x.value < 0 := by
  rw [lt_iff hx (isFinite_ofNat (by norm_num)), value_ofNat (by norm_num), Nat.cast_zero]

/-- **A fixed count of decimals**: the text of a number denotes its exact value, rounded to the
nearest multiple of a power of ten, a half away from zero.  It begins with a sign if the number is
below zero, has an exponent only by the rule for one, and with no more than six places has all of
them.  A multiple of more than 28 digits is refused. -/
theorem fixedText_spec (x : Binary64) (hx : x.isFinite = true) (places : ℤ)
    (hplaces : places.natAbs ≤ 1000) :
    let n := ⌊|x.value| * 10 ^ places + 1 / 2⌋₊
    (n < 10 ^ 28 → ∃ text body, x.fixedText places = .ok text ∧
      text = withSign (decide (x < 0)) body ∧ (text.head? = some '-' ↔ x < 0) ∧
      Expresses body (n * 10 ^ (-places)) ∧ ('E' ∈ body ↔ IsScientific places n) ∧
      (0 ≤ places ∧ places ≤ 6 → HasDecimals places.toNat body)) ∧
    (10 ^ 28 ≤ n → x.fixedText places = .error .precision) := by
  obtain ⟨negative, units, hgrid, rfl⟩ := exists_finite hx
  intro n
  have hmagnitude : scaledMagnitude units places = n := scaledMagnitude_eq negative hgrid places
  have hsign : (negative && units != 0) = decide (Binary64.finite negative units hgrid < 0) := by
    rw [sign_eq_decide negative hgrid]
    exact decide_eq_decide.mpr (lt_zero_iff rfl).symm
  have htext := fixedText_finite negative hgrid hplaces
  rw [hmagnitude, hsign] at htext
  obtain ⟨hexpresses, hscientific, hdecimals⟩ := expresses_scaledText n places
  refine ⟨fun hn => ?_, fun hn => ?_⟩
  · have hdigits : ¬ 10 ^ maxDigits ≤ n := not_le.mpr hn
    rw [if_neg hdigits] at htext
    refine ⟨_, _, htext, rfl, ?_, hexpresses, hscientific, fun hfew => hdecimals ?_⟩
    · rw [withSign]
      split_ifs with hneg
      · exact iff_of_true rfl (of_decide_eq_true hneg)
      · exact iff_of_false hexpresses.head?_ne (fun h => hneg (decide_eq_true h))
    · rintro (hlow | ⟨hhigh, -⟩) <;> omega
  · have hdigits : 10 ^ maxDigits ≤ n := hn
    rw [htext, if_pos hdigits]

/-- A half between two tens is rounded away from zero, and a number of 29 digits is refused. -/
theorem fixedText_spec_limits :
    ((-15 : Binary64).isFinite = true ∧ ⌊|(-15 : Binary64).value| * 10 ^ (-1 : ℤ) + 1 / 2⌋₊ = 2 ∧
      ∃ body, (-15 : Binary64).fixedText (-1) = .ok ('-' :: body) ∧
        Expresses body (2 * 10 ^ (1 : ℤ)) ∧ 'E' ∈ body) ∧
      (1000000000000000 : Binary64).isFinite = true ∧
        (1000000000000000 : Binary64).fixedText 13 = .error .precision := by
  have hfifteen : (-15 : Binary64).isFinite = true := by decide +kernel
  have hvalue : (-15 : Binary64).value = -15 := by
    rw [value_neg, value_ofNat (by norm_num)]
    norm_num
  have hrounded : ⌊|(-15 : Binary64).value| * 10 ^ (-1 : ℤ) + 1 / 2⌋₊ = 2 := by
    rw [hvalue, Nat.floor_eq_iff (by positivity)]
    norm_num
  have hlarge : (1000000000000000 : Binary64).isFinite = true := isFinite_ofNat (by norm_num)
  have hlimit : 10 ^ 28 ≤ ⌊|(1000000000000000 : Binary64).value| * 10 ^ (13 : ℤ) + 1 / 2⌋₊ := by
    rw [value_ofNat (by norm_num)]
    exact Nat.le_floor (by norm_num)
  obtain ⟨text, body, htext, hsign, -, hexpresses, hscientific, -⟩ :=
    (fixedText_spec _ hfifteen (-1) (by decide)).1 (by rw [hrounded]; norm_num)
  have hnegative : decide ((-15 : Binary64) < 0) = true := by decide +kernel
  rw [hrounded] at hexpresses hscientific
  rw [hnegative] at hsign
  refine ⟨⟨hfifteen, hrounded, body, ?_, hexpresses, hscientific.mpr (Or.inl (by decide))⟩, hlarge,
    (fixedText_spec _ hlarge 13 (by decide)).2 hlimit⟩
  rw [htext, hsign]
  rfl

/-- The decimals of a number are those of its exact value, which is not always the one written. -/
example : (-0.125 : Binary64).fixedText 2 = .ok "-0.13".toList
    ∧ (2.675 : Binary64).fixedText 2 = .ok "2.67".toList
    ∧ (-0 : Binary64).fixedText 1 = .ok "0.0".toList := by decide +kernel

end Binary64

end Swatch
