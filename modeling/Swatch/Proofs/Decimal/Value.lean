import Swatch.Proofs.Decimal.Numeral
/-!
The numbers that decimals denote, and what they are rounded to.

* `Decimal.toRat`, `Decimal.nearest_toRat`: the number that a decimal denotes, and what it is
  rounded to.
* `Decimal.units_mono`, `Decimal.units_of_between`: rounding is monotone, so what lies between a
  number and a decimal that is rounded to it is rounded to it too.
* `Decimal.ten_zpow_le_toRat`, `Decimal.toRat_lt_ten_zpow`: where the leading digit of a decimal
  stands.
* `Numeral.toBinary64_decimal`: the number of a numeral is its decimal rounded, although a leading
  digit too far from the point decides it at once.
-/

namespace Swatch

open Binary64

namespace Decimal

/-- Far below the smallest number a power of ten is rounded to zero. -/
lemma units_underflow : (⟨1, -330⟩ : Decimal).units = 0 := by decide +kernel

/-- Above the largest number a power of ten is rounded past it. -/
lemma unitsBound_le_units : unitsBound ≤ (⟨1, 310⟩ : Decimal).units := by decide +kernel

end Decimal

/-- A power of ten with an exponent of any sign, as it is written in whole numbers. -/
lemma ten_zpow_eq_div (e : ℤ) : (10 : ℚ) ^ e = 10 ^ e.toNat / 10 ^ (-e).toNat := by
  rw [eq_div_iff (by positivity), ← zpow_natCast, ← zpow_natCast, ← zpow_add₀ (by norm_num)]
  congr 1
  omega

namespace Decimal

variable {u : Nat} {d d' : Decimal}

/-! ### The number that a decimal denotes -/

/-- The number that a decimal denotes. -/
def toRat (d : Decimal) : ℚ := d.digits * 10 ^ d.exponent

lemma toRat_one (e : ℤ) : (⟨1, e⟩ : Decimal).toRat = 10 ^ e := by
  rw [toRat, Nat.cast_one, one_mul]

lemma toRat_nonneg (d : Decimal) : 0 ≤ d.toRat := by
  rw [toRat]
  positivity

/-- A decimal is rounded to the number of its units. -/
lemma nearest_toRat (d : Decimal) : nearest d.toRat = d.units / unitsPerOne := by
  have hU := unitsPerOne_cast_pos
  rw [nearest_of_nonneg d.toRat_nonneg, units]
  refine nearestMagnitude_eq (Nat.pow_pos (by norm_num)) ?_
  rw [abs_of_nonneg d.toRat_nonneg, toRat, ten_zpow_eq_div]
  push_cast
  field_simp

/-- The number of units says what a decimal is rounded to. -/
lemma units_eq_iff : d.units = u ↔ nearest d.toRat = u / unitsPerOne := by
  rw [nearest_toRat, div_left_inj' unitsPerOne_cast_pos.ne', Nat.cast_inj]

lemma nearest_div_unitsPerOne (hu : OnGrid u) :
    nearest ((u : ℚ) / unitsPerOne) = u / unitsPerOne := by
  have hU := unitsPerOne_cast_pos
  exact nearest_of_representable ⟨u, hu, abs_of_nonneg (by positivity)⟩

/-- Rounding is monotone. -/
theorem units_mono (h : d.toRat ≤ d'.toRat) : d.units ≤ d'.units := by
  have hnearest := nearest_mono h
  rw [nearest_toRat, nearest_toRat, div_le_div_iff_of_pos_right unitsPerOne_cast_pos] at hnearest
  exact_mod_cast hnearest

/-- What lies between a number and a decimal that is rounded to it is rounded to it too. -/
theorem units_of_between (hu : OnGrid u) (hd : d.units = u)
    (h : d.toRat ≤ d'.toRat ∧ d'.toRat ≤ u / unitsPerOne
      ∨ (u : ℚ) / unitsPerOne ≤ d'.toRat ∧ d'.toRat ≤ d.toRat) : d'.units = u := by
  rw [units_eq_iff] at hd ⊢
  have hself := nearest_div_unitsPerOne hu
  rcases h with ⟨hlow, hhigh⟩ | ⟨hlow, hhigh⟩
  · exact le_antisymm (hself ▸ nearest_mono hhigh) (hd ▸ nearest_mono hlow)
  · exact le_antisymm (hd ▸ nearest_mono hhigh) (hself ▸ nearest_mono hlow)

/-! ### The leading digit of a decimal -/

lemma lt_ten_pow_length (n : Nat) : n < 10 ^ (digitsOf n).length :=
  (Nat.length_toDigits_le_iff (by norm_num) Nat.length_toDigits_pos).mp le_rfl

lemma ten_pow_length_le {n : Nat} (hn : 0 < n) : 10 ^ ((digitsOf n).length - 1) ≤ n := by
  have hlength : 0 < (digitsOf n).length := Nat.length_toDigits_pos
  rcases Nat.eq_zero_or_pos ((digitsOf n).length - 1) with hzero | hpos
  · rw [hzero, Nat.pow_zero]
    exact hn
  · by_contra hlt
    have hle := (Nat.length_toDigits_le_iff (by norm_num) hpos).mpr (not_le.mp hlt)
    rw [← digitsOf] at hle
    omega

lemma toRat_lt_ten_zpow (m : Nat) (e : ℤ) :
    (⟨m, e⟩ : Decimal).toRat < 10 ^ (e + (digitsOf m).length) := by
  rw [toRat, add_comm, zpow_add₀ (by norm_num), zpow_natCast]
  refine mul_lt_mul_of_pos_right ?_ (by positivity)
  exact_mod_cast lt_ten_pow_length m

lemma ten_zpow_le_toRat {m : Nat} (hm : 0 < m) (e : ℤ) :
    (10 : ℚ) ^ (e + ((digitsOf m).length - 1 : Nat)) ≤ (⟨m, e⟩ : Decimal).toRat := by
  rw [toRat, add_comm, zpow_add₀ (by norm_num), zpow_natCast]
  refine mul_le_mul_of_nonneg_right ?_ (by positivity)
  exact_mod_cast ten_pow_length_le hm

end Decimal

open Decimal

/-! ### The number of a numeral -/

namespace Binary64

/-- The number that is nearest to a decimal, by its units. -/
lemma ofScaled_eq (negative : Bool) (m : Nat) (e : ℤ) : ofScaled negative m e
    = if h : (⟨m, e⟩ : Decimal).units < unitsBound
      then .finite negative (⟨m, e⟩ : Decimal).units (onGrid_roundUnits h)
      else .infinity negative := rfl

/-- A decimal that is rounded to a point of the grid is nearest to its number. -/
lemma ofScaled_of_units {m u : Nat} {e : ℤ} (hu : OnGrid u) (h : (⟨m, e⟩ : Decimal).units = u)
    (negative : Bool) : ofScaled negative m e = .finite negative u hu := by
  subst h
  rw [ofScaled_eq, dif_pos hu.1]

lemma units_of_ofScaled {m u : Nat} {e : ℤ} {negative negative' : Bool} {hu : OnGrid u}
    (h : ofScaled negative m e = .finite negative' u hu) : (⟨m, e⟩ : Decimal).units = u := by
  rw [ofScaled_eq] at h
  split_ifs at h
  exact (finite.inj h).2

end Binary64

namespace Numeral

/-- The number of a numeral is its decimal rounded.  A leading digit below all numbers leaves zero,
and one above them leaves an infinity. -/
theorem toBinary64_decimal (negative : Bool) (m : Nat) (e : ℤ) :
    toBinary64 (.decimal negative m e) = .ofScaled negative m e := by
  have hzero : OnGrid 0 := ⟨unitsBound_pos, Nat.dvd_zero _⟩
  have hlength : 0 < (digitsOf m).length := Nat.length_toDigits_pos
  rw [toBinary64]
  split_ifs with hsmall hlarge
  · rw [Bool.or_eq_true, decide_eq_true_eq, decide_eq_true_eq] at hsmall
    have hbelow : (⟨m, e⟩ : Decimal).toRat ≤ (⟨1, -330⟩ : Decimal).toRat := by
      rw [toRat_one]
      rcases hsmall with rfl | hlead
      · rw [toRat, Nat.cast_zero, zero_mul]
        positivity
      · exact (toRat_lt_ten_zpow m e).le.trans (zpow_le_zpow_right₀ (by norm_num) (by omega))
    have hunits : (⟨m, e⟩ : Decimal).units = 0 := by
      refine units_of_between hzero units_underflow (Or.inr ⟨?_, hbelow⟩)
      rw [Nat.cast_zero, zero_div]
      exact toRat_nonneg _
    exact (ofScaled_of_units hzero hunits negative).symm
  · rw [Bool.or_eq_true, decide_eq_true_eq, decide_eq_true_eq, not_or] at hsmall
    have habove : (⟨1, 310⟩ : Decimal).toRat ≤ (⟨m, e⟩ : Decimal).toRat := by
      rw [toRat_one]
      exact (zpow_le_zpow_right₀ (by norm_num) (by omega)).trans
        (ten_zpow_le_toRat (Nat.pos_of_ne_zero hsmall.1) e)
    have hunits : unitsBound ≤ (⟨m, e⟩ : Decimal).units :=
      unitsBound_le_units.trans (units_mono habove)
    rw [ofScaled_eq, dif_neg (not_lt.mpr hunits)]
  · rfl

end Numeral

end Swatch
