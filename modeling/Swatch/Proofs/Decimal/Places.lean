import Swatch.Proofs.Binary64.Bounds
import Swatch.Proofs.Decimal.Value
/-!
Numbers of units of a power of ten: how they are written with a point, and how they are read.

* `Decimal.pointText`: such a number with its point, all places written.
* `Decimal.scaledText_point`: what a rounded number is written as.
* `Numeral.read?_pointText`: it is read as the number of units that it was written from.
* `Decimal.tenthsText`, `Decimal.hundredthsText`: the same without zeros at the end.
* `exists_readNumber_tenthsText`, `exists_readNumber_hundredthsText`: their numbers.
* `Binary64.scaledMagnitude_eq`: a number is rounded from its exact value.
* `Binary64.exists_fixedText_eq`: a number that is not negative is rounded to the nearest number of
  units, a half up.
-/

namespace Swatch

open Binary64 Parts

/-! ### Digits after a point -/

namespace Decimal

/-- The last digits of a number, so many of them, zeros in front included. -/
def lastDigits : Nat → Nat → Text
  | 0, _ => []
  | places + 1, n => lastDigits places (n / 10) ++ [Nat.digitChar (n % 10)]

/-- A number of units of `10 ^ -places` with its point. -/
def pointText (places n : Nat) : Text := digitsOf (n / 10 ^ places) ++ '.' :: lastDigits places n

@[simp] lemma length_lastDigits (places n : Nat) : (lastDigits places n).length = places := by
  induction places generalizing n with
  | zero => rfl
  | succ places ih => rw [lastDigits, List.length_append, ih, List.length_singleton]

lemma isDigit_of_mem_lastDigits {places n : Nat} {c : Char} (h : c ∈ lastDigits places n) :
    c.isDigit = true := by
  induction places generalizing n with
  | zero => exact absurd h (by simp [lastDigits])
  | succ places ih =>
      rw [lastDigits, List.mem_append, List.mem_singleton] at h
      rcases h with h | rfl
      · exact ih h
      · rw [Nat.isDigit_digitChar, decide_eq_true_eq]
        exact Nat.mod_lt n (by norm_num)

/-- The last digits of a number that is not too small end its digits. -/
lemma digitsOf_append_lastDigits {places n : Nat} (h : 10 ^ places ≤ n) :
    digitsOf (n / 10 ^ places) ++ lastDigits places n = digitsOf n := by
  induction places generalizing n with
  | zero => rw [Nat.pow_zero, Nat.div_one, lastDigits, List.append_nil]
  | succ places ih =>
      have hdiv : 10 ^ places ≤ n / 10 := by
        rw [Nat.le_div_iff_mul_le (by norm_num), ← Nat.pow_succ]
        exact h
      have hten : 10 ≤ n := by
        have hpos : 0 < 10 ^ places := Nat.pow_pos (by norm_num)
        omega
      have hsplit : digitsOf n = digitsOf (n / 10) ++ [Nat.digitChar (n % 10)] :=
        Nat.toDigits_of_base_le (by norm_num) hten
      rw [lastDigits, ← List.append_assoc, Nat.pow_succ', ← Nat.div_div_eq_div_mul, ih hdiv,
        hsplit]

/-- The last digits of a smaller number are its digits behind zeros. -/
lemma lastDigits_of_lt {places n : Nat} (hpos : 0 < places) (h : n < 10 ^ places) :
    lastDigits places n
      = List.replicate (places - (digitsOf n).length) '0' ++ digitsOf n := by
  induction places generalizing n with
  | zero => exact absurd hpos (lt_irrefl 0)
  | succ places ih =>
      rcases Nat.lt_or_ge n 10 with hlt | hge
      · have hone : digitsOf n = [Nat.digitChar n] := Nat.toDigits_of_lt_base hlt
        have hzero : ∀ places, lastDigits places 0 = List.replicate places '0' := by
          intro places
          induction places with
          | zero => rfl
          | succ places ih =>
              rw [lastDigits, Nat.zero_div, ih, List.replicate_succ']
              rfl
        rw [lastDigits, Nat.div_eq_of_lt hlt, Nat.mod_eq_of_lt hlt, hzero, hone]
        rfl
      · have hdiv : n / 10 < 10 ^ places := by
          rw [Nat.div_lt_iff_lt_mul (by norm_num), ← Nat.pow_succ]
          exact h
        have hplaces : 0 < places := by
          by_contra hzero
          rw [Nat.eq_zero_of_not_pos hzero] at hdiv
          omega
        have hsplit : digitsOf n = digitsOf (n / 10) ++ [Nat.digitChar (n % 10)] :=
          Nat.toDigits_of_base_le (by norm_num) hge
        rw [lastDigits, ih hplaces hdiv, hsplit, List.length_append, List.length_singleton,
          Nat.add_sub_add_right, List.append_assoc]

/-- The value of the digits before the point and behind it. -/
lemma ofDigitChars_lastDigits (places n init : Nat) :
    Nat.ofDigitChars 10 (lastDigits places n) init = 10 ^ places * init + n % 10 ^ places := by
  induction places generalizing n with
  | zero => rw [lastDigits, Nat.ofDigitChars_nil, Nat.pow_zero, Nat.one_mul, Nat.mod_one]; rfl
  | succ places ih =>
      have hdigit : (Nat.digitChar (n % 10)).toNat - '0'.toNat = n % 10 := by
        rw [Nat.toNat_digitChar_of_lt_ten (Nat.mod_lt n (by norm_num))]
        exact Nat.add_sub_cancel_left 48 _
      have hmod : n % 10 ^ (places + 1) = 10 * (n / 10 % 10 ^ places) + n % 10 := by
        rw [Nat.pow_succ', Nat.mod_mul]
        ring
      rw [lastDigits, Nat.ofDigitChars_append, ih, Nat.ofDigitChars_cons, Nat.ofDigitChars_nil,
        hdigit, hmod, Nat.pow_succ']
      ring

lemma digitsValue_pointDigits (places n : Nat) :
    digitsValue (digitsOf (n / 10 ^ places) ++ lastDigits places n) = n := by
  have hwhole : Nat.ofDigitChars 10 (digitsOf (n / 10 ^ places)) 0 = n / 10 ^ places :=
    Nat.ofDigitChars_ten_toDigits
  rw [digitsValue, Nat.ofDigitChars_append, hwhole, ofDigitChars_lastDigits]
  exact Nat.div_add_mod n (10 ^ places)

/-! ### Rounded numbers as they are written -/

lemma scaledText_zero (n : Nat) : scaledText ⟨n, 0⟩ = digitsOf n := by
  have hlength : 0 < (digitsOf n).length := Nat.length_toDigits_pos
  have hplain : (decide ((0 : ℤ) ≤ 0) && decide (-6 < (0 : ℤ) + (digitsOf n).length)) = true := by
    rw [Bool.and_eq_true, decide_eq_true_eq, decide_eq_true_eq]
    omega
  rw [scaledText]
  simp only [if_pos hplain]
  rw [if_neg (by omega), if_true]

/-- A rounded number is written with its point if its leading digit stands within six places. -/
theorem scaledText_point {places n : Nat} (hpos : 0 < places)
    (hlead : places < (digitsOf n).length + 6) :
    scaledText ⟨n, -places⟩ = pointText places n := by
  have hplain : (decide (-(places : ℤ) ≤ 0)
      && decide (-6 < -(places : ℤ) + (digitsOf n).length)) = true := by
    rw [Bool.and_eq_true, decide_eq_true_eq, decide_eq_true_eq]
    omega
  have hlength_iff : (digitsOf n).length ≤ places ↔ n < 10 ^ places :=
    Nat.length_toDigits_le_iff (by norm_num) hpos
  rw [scaledText, pointText]
  simp only [if_pos hplain]
  rcases Nat.lt_or_ge n (10 ^ places) with hlt | hge
  · -- no digit stands before the point
    have hle := hlength_iff.mpr hlt
    have hcount : (-(-(places : ℤ) + (digitsOf n).length)).toNat
        = places - (digitsOf n).length := by omega
    rw [if_pos (by omega), hcount, Nat.div_eq_of_lt hlt, lastDigits_of_lt hpos hlt]
    rfl
  · have hlt : places < (digitsOf n).length := by
      rw [← not_le, hlength_iff]
      exact not_lt.mpr hge
    have hsplit := digitsOf_append_lastDigits hge
    have hwhole : (-(places : ℤ) + (digitsOf n).length).toNat
        = (digitsOf (n / 10 ^ places)).length := by
      have := congrArg List.length hsplit
      rw [List.length_append, length_lastDigits] at this
      omega
    rw [if_neg (by omega), if_neg (by omega), hwhole, ← hsplit, List.take_left, List.drop_left]

/-- So it is whatever its digits if it has few places. -/
lemma scaledText_neg {places : Nat} (hpos : 0 < places) (hplaces : places ≤ 6) (n : Nat) :
    scaledText ⟨n, -places⟩ = pointText places n := by
  have hlength : 0 < (digitsOf n).length := Nat.length_toDigits_pos
  exact scaledText_point hpos (by omega)

/-! ### Reading them back -/

lemma isDecimal_digitsOf (n : Nat) : IsDecimal (digitsOf n) :=
  ⟨(isRun_digitsOf n).1, fun c hc => isDecimalChar_of_isDigit ((isRun_digitsOf n).2 c hc)⟩

lemma isDecimal_pointText (places n : Nat) : IsDecimal (pointText places n) := by
  refine ⟨by simp [pointText], fun c hc => ?_⟩
  rw [pointText, List.mem_append, List.mem_cons] at hc
  rcases hc with hc | rfl | hc
  · exact (isDecimal_digitsOf _).2 c hc
  · decide
  · exact isDecimalChar_of_isDigit (isDigit_of_mem_lastDigits hc)

end Decimal

open Decimal

namespace Numeral

/-- A number with its point is read as the number of units that it was written from. -/
lemma read?_pointText (places n : Nat) :
    read? (pointText places n) = some (.decimal false n (-places)) := by
  have hwhole : Text.span Char.isDigit (pointText places n)
      = (digitsOf (n / 10 ^ places), '.' :: lastDigits places n) :=
    Text.span_eq_iff.mpr ⟨rfl, (isRun_digitsOf _).2, Text.stops_cons.mpr (by decide)⟩
  have hfraction : Text.span Char.isDigit (lastDigits places n) = (lastDigits places n, []) :=
    Text.span_eq_iff.mpr ⟨(List.append_nil _).symm,
      fun _ hc => isDigit_of_mem_lastDigits hc, Text.stops_nil _⟩
  have hne : digitsOf (n / 10 ^ places) ++ lastDigits places n ≠ [] := by
    simp [(isRun_digitsOf _).1]
  rw [read?_of_isDecimal (isDecimal_pointText places n), decimal?]
  simp only [hwhole, hfraction, if_neg hne]
  rw [digitsValue_pointDigits, exponent?, Option.map_some, length_lastDigits, zero_sub]

lemma read?_digitsOf (n : Nat) : read? (digitsOf n) = some (.decimal false n 0) := by
  have hwhole : Text.span Char.isDigit (digitsOf n) = (digitsOf n, []) :=
    Text.span_eq_iff.mpr ⟨(List.append_nil _).symm, (isRun_digitsOf n).2, Text.stops_nil _⟩
  have hvalue : digitsValue (digitsOf n) = n := Nat.ofDigitChars_ten_toDigits
  rw [read?_of_isDecimal (isDecimal_digitsOf n), decimal?]
  simp only [hwhole, List.append_nil, if_neg (isRun_digitsOf n).1]
  rw [hvalue]
  rfl

/-- The floating-point number of a number of units is that number rounded. -/
lemma isRounded_toBinary64 (places n : Nat) :
    IsRounded ((n : ℚ) / 10 ^ places) (toBinary64 (.decimal false n (-places))) := by
  rw [toBinary64_decimal]
  exact isRounded_ofScientific n places

end Numeral

/-- The number of a text of digits. -/
lemma exists_readNumber_digitsOf (n : Nat) :
    ∃ x, readNumber (digitsOf n) = .ok x ∧ IsRounded (n : ℚ) x := by
  have hround := Numeral.isRounded_toBinary64 0 n
  rw [pow_zero, div_one, Nat.cast_zero, neg_zero] at hround
  rw [readNumber, Numeral.read?_digitsOf]
  exact ⟨_, rfl, hround⟩

/-- The number of a text with a point. -/
lemma exists_readNumber_pointText (places n : Nat) :
    ∃ x, readNumber (pointText places n) = .ok x ∧ IsRounded ((n : ℚ) / 10 ^ places) x := by
  rw [readNumber, Numeral.read?_pointText]
  exact ⟨_, rfl, Numeral.isRounded_toBinary64 places n⟩

/-! ### Without zeros at the end -/

namespace Decimal

/-- The last digit of a number is no zero, unless ten divides the number, and it is no point. -/
lemma digitChar_mod_ten {n : Nat} (h : n % 10 ≠ 0) :
    Nat.digitChar (n % 10) ≠ '0' ∧ Nat.digitChar (n % 10) ≠ '.' := by
  have hnat := Nat.toNat_digitChar_of_lt_ten (Nat.mod_lt n (by norm_num : 0 < 10))
  have hzero : '0'.toNat = 48 := rfl
  have hpoint : '.'.toNat = 46 := rfl
  refine ⟨fun heq => ?_, fun heq => ?_⟩
  · rw [heq, hzero] at hnat
    omega
  · rw [heq, hpoint] at hnat
    omega

/-- A number of tenths, without a point if it is an integer. -/
def tenthsText (n : Nat) : Text := if n % 10 = 0 then digitsOf (n / 10) else pointText 1 n

/-- A number of hundredths, without zeros at the end and without a point if it is an integer. -/
def hundredthsText (n : Nat) : Text := if n % 10 = 0 then tenthsText (n / 10) else pointText 2 n

lemma isDecimal_tenthsText (n : Nat) : IsDecimal (tenthsText n) := by
  rw [tenthsText]
  split_ifs
  · exact isDecimal_digitsOf _
  · exact isDecimal_pointText 1 n

lemma isDecimal_hundredthsText (n : Nat) : IsDecimal (hundredthsText n) := by
  rw [hundredthsText]
  split_ifs
  · exact isDecimal_tenthsText _
  · exact isDecimal_pointText 2 n

/-- What is left of a number of tenths when a fraction of zero is taken off. -/
lemma dropEnd_pointText (n : Nat) : Text.dropEnd ".0".toList (pointText 1 n) = tenthsText n := by
  have hreverse : (pointText 1 n).reverse
      = Nat.digitChar (n % 10) :: '.' :: (digitsOf (n / 10)).reverse := by
    simp [pointText, lastDigits]
  have hending : ".0".toList.reverse = ['0', '.'] := rfl
  rw [Text.dropEnd, hreverse, hending, tenthsText]
  split_ifs with hzero
  · rw [hzero]
    have hword : Text.dropWord? ['0', '.'] ('0' :: '.' :: (digitsOf (n / 10)).reverse)
        = some (digitsOf (n / 10)).reverse := Text.dropWord?_append ['0', '.'] _
    rw [show Nat.digitChar 0 = '0' from rfl, hword, Option.map_some, List.reverse_reverse]
    rfl
  · have hne := (digitChar_mod_ten hzero).1
    have hnone : Text.dropWord? ['0', '.']
        (Nat.digitChar (n % 10) :: '.' :: (digitsOf (n / 10)).reverse) = none := by
      rw [← Option.not_isSome_iff_eq_none, Option.isSome_iff_exists]
      rintro ⟨rest, hrest⟩
      rw [Text.dropWord?_eq_some_iff] at hrest
      exact hne (List.cons.inj hrest).1
    rw [hnone]
    rfl

end Decimal

/-- The number of a text of tenths. -/
lemma exists_readNumber_tenthsText (n : Nat) :
    ∃ x, readNumber (tenthsText n) = .ok x ∧ IsRounded ((n : ℚ) / 10) x := by
  rw [tenthsText]
  split_ifs with hzero
  · obtain ⟨x, hx, hround⟩ := exists_readNumber_digitsOf (n / 10)
    refine ⟨x, hx, ?_⟩
    have hcast : ((n / 10 : Nat) : ℚ) = n / 10 := by
      rw [Nat.cast_div (Nat.dvd_of_mod_eq_zero hzero) (by norm_num)]
      rfl
    rwa [hcast] at hround
  · obtain ⟨x, hx, hround⟩ := exists_readNumber_pointText 1 n
    rw [pow_one] at hround
    exact ⟨x, hx, hround⟩

/-- The number of a text of hundredths. -/
lemma exists_readNumber_hundredthsText (n : Nat) :
    ∃ x, readNumber (hundredthsText n) = .ok x ∧ IsRounded ((n : ℚ) / 100) x := by
  rw [hundredthsText]
  split_ifs with hzero
  · obtain ⟨x, hx, hround⟩ := exists_readNumber_tenthsText (n / 10)
    refine ⟨x, hx, ?_⟩
    have hcast : ((n / 10 : Nat) : ℚ) / 10 = n / 100 := by
      rw [Nat.cast_div (Nat.dvd_of_mod_eq_zero hzero) (by norm_num)]
      push_cast
      ring
    rwa [hcast] at hround
  · obtain ⟨x, hx, hround⟩ := exists_readNumber_pointText 2 n
    norm_num at hround
    exact ⟨x, hx, hround⟩

/-! ### Rounding to a number of units -/

/-- The nearest whole number, a half up. -/
lemma nearestUp_spec (num : Nat) {den : Nat} (hd : 0 < den) :
    (nearestUp num den : ℚ) ≤ num / den + 1 / 2
      ∧ (num : ℚ) / den + 1 / 2 < nearestUp num den + 1 := by
  have hdq : (0 : ℚ) < den := Nat.cast_pos.mpr hd
  have hle := Nat.div_mul_le_self (2 * num + den) (2 * den)
  have hlt := Nat.lt_div_mul_add (a := 2 * num + den) (b := 2 * den) (by omega)
  rw [← nearestUp] at hle hlt
  have hleq : (nearestUp num den : ℚ) * (2 * den) ≤ 2 * num + den := by exact_mod_cast hle
  have hltq : (2 * num + den : ℚ) < nearestUp num den * (2 * den) + 2 * den := by
    exact_mod_cast hlt
  have hhalf : (num : ℚ) / den + 1 / 2 = (2 * num + den) / (2 * den) := by
    field_simp
  rw [hhalf, le_div_iff₀ (by positivity), div_lt_iff₀ (by positivity)]
  constructor <;> linarith

/-- The nearest whole number, a half up, is the floor of what is a half more. -/
lemma nearestUp_eq_floor (num : Nat) {den : Nat} (hd : 0 < den) :
    nearestUp num den = ⌊(num : ℚ) / den + 1 / 2⌋₊ := by
  obtain ⟨hle, hlt⟩ := nearestUp_spec num hd
  have hnonneg : (0 : ℚ) ≤ num / den + 1 / 2 := by positivity
  exact ((Nat.floor_eq_iff hnonneg).mpr ⟨hle, hlt⟩).symm

namespace Binary64

/-- The magnitude of a number in units of a power of ten, which may be a large or a small one. -/
lemma scaledMagnitude_eq (negative : Bool) {units : Nat} (hgrid : OnGrid units) (places : ℤ) :
    scaledMagnitude units places
      = ⌊|value (.finite negative units hgrid)| * 10 ^ places + 1 / 2⌋₊ := by
  have hU := unitsPerOne_cast_pos
  have hden : 0 < unitsPerOne * 10 ^ (-places).toNat :=
    Nat.mul_pos unitsPerOne_pos (Nat.pow_pos (by norm_num))
  rw [scaledMagnitude, nearestUp_eq_floor _ hden, value, abs_div, abs_signed, abs_of_pos hU,
    ten_zpow_eq_div]
  congr 2
  push_cast
  rw [div_mul_div_comm]

/-- A number that is not negative is written as the nearest number of units, a half up. -/
theorem exists_fixedText_eq {k places : Nat} {x : Binary64} (hx : Between 0 k x)
    (hplaces : places ≤ 6) (hk : k * 10 ^ places + 1 < 10 ^ maxDigits) :
    ∃ n : Nat, x.fixedText places = .ok (scaledText ⟨n, -places⟩) ∧ n ≤ k * 10 ^ places ∧
      (n : ℚ) ≤ x.value * 10 ^ places + 1 / 2 ∧ x.value * 10 ^ places + 1 / 2 < n + 1 := by
  obtain ⟨negative, units, hgrid, rfl⟩ := exists_finite hx.isFinite
  have htext := Within.fixedText_eq (Between.within (by exact_mod_cast hx)) hplaces hk
  rw [sign_of_value_nonneg hx.le_value, withSign, if_neg Bool.false_ne_true] at htext
  have hnonneg : 0 ≤ value (.finite negative units hgrid) * 10 ^ places + 1 / 2 :=
    add_nonneg (mul_nonneg hx.le_value (by positivity)) (by norm_num)
  have hscaled := scaledMagnitude_eq negative hgrid places
  rw [abs_of_nonneg hx.le_value, zpow_natCast] at hscaled
  obtain ⟨hle, hlt⟩ := (Nat.floor_eq_iff hnonneg).mp hscaled.symm
  refine ⟨_, htext, ?_, hle, hlt⟩
  have hbound : (scaledMagnitude units places : ℚ) < k * 10 ^ places + 1 := by
    have := mul_le_mul_of_nonneg_right hx.value_le (by positivity : (0 : ℚ) ≤ 10 ^ places)
    linarith
  exact Nat.lt_succ_iff.mp (by exact_mod_cast hbound)

end Binary64

end Swatch
