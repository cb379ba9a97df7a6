import Swatch.Proofs.Binary64.Value
/-!
Integers as floating-point numbers.

* `Binary64.value_ofInt`: an integer of 53 bits is a number of the format.
* `Binary64.lt_ofInt_iff`, `ofInt_lt_iff`: such an integer is below another one of any size just if
  the numbers are.
* `Binary64.clamp_ofInt`: a channel that is an integer is clamped as the integer is.
* `Binary64.roundHalfUp_ofInt`: an integer is the nearest integer to itself.
-/

namespace Swatch.Binary64

/-- An integer of 53 bits is a number of the format. -/
lemma value_ofInt {n : ℤ} (hn : n.natAbs ≤ 2 ^ (53 : Nat)) :
    (ofInt n).isFinite = true ∧ (ofInt n).value = n :=
  (isRounded_ofInt n).exact (representable_intCast hn)

lemma isFinite_ofNat {n : Nat} (hn : n ≤ 2 ^ (53 : Nat)) :
    (OfNat.ofNat n : Binary64).isFinite = true :=
  (value_ofInt (n := n) hn).1

lemma value_ofNat {n : Nat} (hn : n ≤ 2 ^ (53 : Nat)) : (OfNat.ofNat n : Binary64).value = n :=
  (value_ofInt (n := n) hn).2

/-- An integer that is not below a bound is not rounded to less. -/
lemma le_value_ofInt {k n : ℤ} (hk : k.natAbs ≤ 2 ^ (53 : Nat)) (h : k ≤ n)
    (hn : (ofInt n).isFinite = true) : (k : ℚ) ≤ (ofInt n).value := by
  rw [(isRounded_ofInt n).value_eq hn, ← nearest_of_representable (representable_intCast hk)]
  exact nearest_mono (Int.cast_le.mpr h)

/-- An integer that is not above a bound is not rounded to more. -/
lemma value_ofInt_le {k n : ℤ} (hk : k.natAbs ≤ 2 ^ (53 : Nat)) (h : n ≤ k)
    (hn : (ofInt n).isFinite = true) : (ofInt n).value ≤ k := by
  rw [(isRounded_ofInt n).value_eq hn, ← nearest_of_representable (representable_intCast hk)]
  exact nearest_mono (Int.cast_le.mpr h)

/-- An integer of any size is below one of 53 bits just if its number is: the integer before the
bound is itself a number of the format, so nothing below it is rounded up to the bound. -/
lemma ofInt_lt_iff {k n : ℤ} (hk : k.natAbs < 2 ^ (53 : Nat)) (hn : (ofInt n).isFinite = true) :
    ofInt n < ofInt k ↔ n < k := by
  obtain ⟨hfinite, hvalue⟩ := value_ofInt hk.le
  rw [lt_iff hn hfinite, hvalue]
  constructor
  · intro h
    by_contra hle
    exact absurd h (not_lt.mpr (le_value_ofInt hk.le (not_lt.mp hle) hn))
  · intro h
    have hpred : (k - 1).natAbs ≤ 2 ^ (53 : Nat) := by omega
    have hle := value_ofInt_le hpred (by omega : n ≤ k - 1) hn
    push_cast at hle
    linarith

/-- An integer of any size is above one of 53 bits just if its number is. -/
lemma lt_ofInt_iff {k n : ℤ} (hk : k.natAbs < 2 ^ (53 : Nat)) (hn : (ofInt n).isFinite = true) :
    ofInt k < ofInt n ↔ k < n := by
  obtain ⟨hfinite, hvalue⟩ := value_ofInt hk.le
  rw [lt_iff hfinite hn, hvalue]
  constructor
  · intro h
    by_contra hle
    exact absurd h (not_lt.mpr (value_ofInt_le hk.le (not_lt.mp hle) hn))
  · intro h
    have hsucc : (k + 1).natAbs ≤ 2 ^ (53 : Nat) := by omega
    have hle := le_value_ofInt hsucc (by omega : k + 1 ≤ n) hn
    push_cast at hle
    linarith

/-- An integer is held between the bounds of a channel as a number or as an integer. -/
theorem clamp_ofInt {n : ℤ} (hn : (ofInt n).isFinite = true) :
    (ofInt n).clamp 0 255 = ofInt (Max.max 0 (Min.min 255 n)) := by
  have hmin : min 255 (ofInt n) = ofInt (Min.min 255 n) := by
    change (if ofInt n < ofInt 255 then ofInt n else ofInt 255) = _
    split_ifs with h <;> rw [ofInt_lt_iff (by norm_num) hn] at h
    · rw [min_eq_right h.le]
    · rw [min_eq_left (not_lt.mp h)]
  have hfinite : (ofInt (Min.min 255 n)).isFinite = true := by
    rw [← hmin]
    exact isFinite_min (isFinite_ofNat (by norm_num)) hn
  change (if ofInt 0 < min 255 (ofInt n) then min 255 (ofInt n) else ofInt 0) = _
  rw [hmin]
  split_ifs with h <;> rw [lt_ofInt_iff (by norm_num) hfinite] at h
  · rw [max_eq_right h.le]
  · rw [max_eq_left (not_lt.mp h)]

/-! ### The nearest integer -/

/-- A finite number has a nearest integer. -/
lemma exists_roundHalfUp {x : Binary64} (hx : x.isFinite = true) : ∃ n, x.roundHalfUp = .ok n := by
  obtain ⟨negative, units, hgrid, rfl⟩ := exists_finite hx
  exact ⟨_, rfl⟩

lemma value_half : (0.5 : Binary64).isFinite = true ∧ (0.5 : Binary64).value = 1 / 2 := by
  have hhalf : ((5 : Nat) : ℚ) / 10 ^ 1 = 1 / 2 := by norm_num
  have hrepresentable : Representable (1 / 2) := by
    simpa using representable_two_pow_inv (k := 1) (by norm_num)
  have h := isRounded_ofScientific 5 1
  rw [hhalf] at h
  exact h.exact hrepresentable

/-- An integer is the nearest integer to itself. -/
theorem roundHalfUp_ofInt {n : ℤ} (hn : n.natAbs ≤ 2 ^ (53 : Nat)) :
    (ofInt n).roundHalfUp = .ok n := by
  obtain ⟨hfinite, hvalue⟩ := value_ofInt hn
  obtain ⟨negative, units, hgrid, hx⟩ := exists_finite hfinite
  have hU := unitsPerOne_cast_pos
  have hsigned : signed negative units = n * unitsPerOne := by
    rw [hx, value, div_eq_iff hU.ne'] at hvalue
    exact_mod_cast hvalue
  have hfloor : floorUnits negative units = n := by
    rw [floorUnits, hsigned]
    exact Int.mul_ediv_cancel n (by exact_mod_cast unitsPerOne_pos.ne')
  -- nothing is left of an integer above its floor
  have hrest : ¬ (0.5 : Binary64) ≤ ofInt n - ofInt n := by
    have hsub := isRounded_sub hfinite hfinite
    rw [sub_self] at hsub
    have hzero := hsub.exact (representable_natCast (n := 0) (by norm_num))
    rw [le_iff value_half.1 hzero.1, value_half.2, hzero.2]
    norm_num
  rw [hx, roundHalfUp, hfloor, ← hx, if_neg hrest]

end Swatch.Binary64
