import Swatch.Decimal.Fixed
import Swatch.Proofs.Binary64.Integer
/-!
How large the results of operations can be.

* `Binary64.Within`: a finite number of at most a given magnitude.
* `Within.mul`: the magnitude of a product is at most the product of the magnitudes, as long as that
  is an integer of 53 bits.
* `Within.exists_fixedText`: a number of moderate size has a text with a fixed count of decimals.
-/

namespace Swatch.Binary64

/-- A finite number of at most a given magnitude. -/
def Within (k : Nat) (x : Binary64) : Prop := Between (-k) k x

lemma Within.isFinite {k : Nat} {x : Binary64} (h : Within k x) : x.isFinite = true :=
  Between.isFinite h

lemma Within.abs_value_le {k : Nat} {x : Binary64} (h : Within k x) : |x.value| ≤ k :=
  abs_le.mpr ⟨h.le_value, h.value_le⟩

lemma within_of_abs_le {k : Nat} {x : Binary64} (hx : x.isFinite = true) (h : |x.value| ≤ k) :
    Within k x :=
  ⟨hx, (abs_le.mp h).1, (abs_le.mp h).2⟩

/-- A number that is not negative keeps to its upper bound. -/
lemma Between.within {k : Nat} {x : Binary64} (h : Between 0 k x) : Within k x :=
  Between.mono h (neg_nonpos.mpr (Nat.cast_nonneg k)) le_rfl

/-- What is rounded keeps to a bound that is an integer of 53 bits. -/
lemma IsRounded.within {q : ℚ} {x : Binary64} {k : Nat} (h : IsRounded q x)
    (hk : k ≤ 2 ^ (53 : Nat)) (hq : |q| ≤ k) : Within k x :=
  h.between (representable_natCast hk).neg (representable_natCast hk) (abs_le.mp hq).1
    (abs_le.mp hq).2

/-- A product is at most as large as the product of the bounds. -/
lemma Within.mul {a b : Nat} {x y : Binary64} (hx : Within a x) (hy : Within b y)
    (hab : a * b ≤ 2 ^ (53 : Nat)) : Within (a * b) (x * y) := by
  refine (isRounded_mul hx.isFinite hy.isFinite).within hab ?_
  rw [abs_mul]
  push_cast
  exact mul_le_mul hx.abs_value_le hy.abs_value_le (abs_nonneg _) (Nat.cast_nonneg a)

lemma within_ofNat {n : Nat} (hn : n ≤ 2 ^ (53 : Nat)) : Within n (OfNat.ofNat n) := by
  refine within_of_abs_le (isFinite_ofNat hn) ?_
  rw [value_ofNat hn, Nat.abs_cast]

/-! ### Signs and units -/

/-- The sign bit of a number counts unless the number is a zero. -/
lemma sign_eq_decide (negative : Bool) {units : Nat} (hgrid : OnGrid units) :
    (negative && units != 0) = decide (value (.finite negative units hgrid) < 0) := by
  have hlt : value (.finite negative units hgrid) < 0 ↔ signed negative units < 0 := by
    rw [value, div_lt_iff₀ unitsPerOne_cast_pos, zero_mul]
    exact_mod_cast Iff.rfl
  rw [Bool.eq_iff_iff, decide_eq_true_eq, hlt, Bool.and_eq_true, bne_iff_ne]
  cases negative with
  | false => simp [signed_false]
  | true => simp [signed_true, Nat.pos_iff_ne_zero]

/-- A number that is not negative is written without a sign, a negative zero too. -/
lemma sign_of_value_nonneg {negative : Bool} {units : Nat} {hgrid : OnGrid units}
    (h : 0 ≤ value (.finite negative units hgrid)) : (negative && units != 0) = false := by
  rw [sign_eq_decide negative hgrid, decide_eq_false (not_lt.mpr h)]

/-- The bound in units. -/
lemma units_le_of_within {k units : Nat} {negative : Bool} {hgrid : OnGrid units}
    (h : Within k (.finite negative units hgrid)) : units ≤ k * unitsPerOne := by
  have habs := h.abs_value_le
  rw [value, abs_div, abs_signed, abs_of_pos unitsPerOne_cast_pos,
    div_le_iff₀ unitsPerOne_cast_pos] at habs
  exact_mod_cast habs

/-! ### Texts with a fixed count of decimals -/

/-- What the text of a finite number depends on, if the count of decimals is no enormous one. -/
lemma fixedText_finite (negative : Bool) {units : Nat} (hgrid : OnGrid units) {places : ℤ}
    (hplaces : places.natAbs ≤ 1000) :
    fixedText (.finite negative units hgrid) places
      = if 10 ^ Decimal.maxDigits ≤ scaledMagnitude units places then .error .precision
        else .ok (withSign (negative && units != 0)
          (Decimal.scaledText ⟨scaledMagnitude units places, -places⟩)) := by
  have hshift : ¬ Decimal.maxShift < places.natAbs := by
    have hlimit : 1000 ≤ Decimal.maxShift := by decide
    omega
  have hexponent : ¬ places < -Decimal.maxExponent := by
    have hlimit : 1000 ≤ Decimal.maxExponent := by decide
    omega
  have hheld : Decimal.heldPlaces places = places := by
    have hlimit : 1000 ≤ Decimal.maxPlaces := by decide
    rw [Decimal.heldPlaces, min_eq_left]
    omega
  rw [fixedText, if_neg hshift, if_neg hexponent]
  simp only [hheld]

/-- A number with decimals cut off and rounded is no larger by more than one. -/
lemma Within.scaledMagnitude_le {k units : Nat} {negative : Bool} {hgrid : OnGrid units}
    (hx : Within k (.finite negative units hgrid)) (places : Nat) :
    scaledMagnitude units places ≤ k * 10 ^ places + 1 := by
  rw [scaledMagnitude, nearestUp, Int.toNat_natCast, Int.toNat_neg_natCast, Nat.pow_zero,
    Nat.mul_one]
  refine Nat.div_le_of_le_mul ?_
  calc 2 * (units * 10 ^ places) + unitsPerOne
      ≤ 2 * (k * unitsPerOne * 10 ^ places) + 2 * unitsPerOne := by
        have := Nat.mul_le_mul_right (10 ^ places) (units_le_of_within hx)
        omega
    _ = 2 * unitsPerOne * (k * 10 ^ places + 1) := by ring

/-- A number of moderate size has a text with a fixed count of decimals. -/
lemma Within.fixedText_eq {k units : Nat} {negative : Bool} {hgrid : OnGrid units}
    (hx : Within k (.finite negative units hgrid)) {places : Nat} (hplaces : places ≤ 6)
    (hk : k * 10 ^ places + 1 < 10 ^ Decimal.maxDigits) :
    fixedText (.finite negative units hgrid) places
      = .ok (withSign (negative && units != 0)
          (Decimal.scaledText ⟨scaledMagnitude units places, -places⟩)) := by
  have hscaled := hx.scaledMagnitude_le places
  rw [fixedText_finite negative hgrid (by omega), if_neg (by omega)]

lemma Within.exists_fixedText {k places : Nat} {x : Binary64} (hx : Within k x)
    (hplaces : places ≤ 6) (hk : k * 10 ^ places + 1 < 10 ^ Decimal.maxDigits) :
    ∃ t, x.fixedText places = .ok t := by
  obtain ⟨negative, units, hgrid, rfl⟩ := exists_finite hx.isFinite
  exact ⟨_, hx.fixedText_eq hplaces hk⟩

end Swatch.Binary64
