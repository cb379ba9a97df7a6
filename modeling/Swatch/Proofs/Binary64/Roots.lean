import Mathlib.Analysis.SpecialFunctions.Pow.NNReal
import Swatch.Binary64.Root
import Swatch.Proofs.Binary64.Euler
/-!
Rounded roots and real ones.

* `Binary64.exists_roundedRoot`: the rounded root of a number of units is near the exact one.
* `Binary64.exists_cbrt`, `Binary64.abs_sqrt_sub_le`: so are the cube root and the square root of a
  number between zero and two.
-/

namespace Swatch

namespace Binary64

lemma floorRoot_mul_pow_le {degree : Nat} (hd : degree ≠ 0) (n cut : Nat) :
    (floorRoot degree (n >>> (degree * cut)) * 2 ^ cut) ^ degree ≤ n := by
  have hroot := floorRoot_pow_le hd (n >>> (degree * cut))
  calc (floorRoot degree (n >>> (degree * cut)) * 2 ^ cut) ^ degree
      = floorRoot degree (n >>> (degree * cut)) ^ degree * 2 ^ (degree * cut) := by
        rw [Nat.mul_pow, ← Nat.pow_mul, Nat.mul_comm cut]
    _ ≤ n >>> (degree * cut) * 2 ^ (degree * cut) := Nat.mul_le_mul_right _ hroot
    _ ≤ n := by
        rw [Nat.shiftRight_eq_div_pow]
        exact Nat.div_mul_le_self _ _

lemma lt_floorRoot_succ_mul_pow {degree : Nat} (hd : degree ≠ 0) (n cut : Nat) :
    n < ((floorRoot degree (n >>> (degree * cut)) + 1) * 2 ^ cut) ^ degree := by
  have hroot := lt_floorRoot_succ_pow hd (n >>> (degree * cut))
  have hn : n < (n >>> (degree * cut) + 1) * 2 ^ (degree * cut) := by
    rw [Nat.shiftRight_eq_div_pow, Nat.add_one_mul]
    exact Nat.lt_div_mul_add (Nat.two_pow_pos _)
  calc n < (n >>> (degree * cut) + 1) * 2 ^ (degree * cut) := hn
    _ ≤ (floorRoot degree (n >>> (degree * cut)) + 1) ^ degree * 2 ^ (degree * cut) :=
        Nat.mul_le_mul_right _ hroot
    _ = ((floorRoot degree (n >>> (degree * cut)) + 1) * 2 ^ cut) ^ degree := by
        rw [Nat.mul_pow, ← Nat.pow_mul, Nat.mul_comm cut]

/-- A root lies between the integer root of the leading bits and the next one. -/
lemma floorRoot_mul_pow_mem {degree n : Nat} (hd : degree ≠ 0) {root : ℝ} (hroot : 0 ≤ root)
    (hpow : root ^ degree = n) (cut : Nat) :
    (floorRoot degree (n >>> (degree * cut)) : ℝ) * 2 ^ cut ≤ root ∧
      root ≤ (floorRoot degree (n >>> (degree * cut)) + 1) * 2 ^ cut := by
  have hlow := floorRoot_mul_pow_le hd n cut
  have hhigh := lt_floorRoot_succ_mul_pow hd n cut
  constructor
  · refine (pow_le_pow_iff_left₀ (by positivity) hroot hd).mp ?_
    rw [hpow]
    exact_mod_cast hlow
  · refine (pow_le_pow_iff_left₀ hroot (by positivity) hd).mp ?_
    rw [hpow]
    exact_mod_cast hhigh.le

/-- The bits that are cut off before a root is taken are far below one. -/
lemma two_pow_cut_le {degree n : Nat} (hd : degree ≠ 0) (hn : n ≤ (2 * unitsPerOne) ^ degree) :
    2 ^ ((n.log2 - 64 * degree) / degree) * 2 ^ (42 : Nat) ≤ unitsPerOne := by
  set cut := (n.log2 - 64 * degree) / degree with hcut
  rcases Nat.eq_zero_or_pos cut with hzero | hpos
  · rw [hzero, Nat.pow_zero, Nat.one_mul, unitsPerOne_eq]
    exact Nat.pow_le_pow_right Nat.two_pos (le_unitBits (by norm_num))
  · have hmul : degree * cut ≤ n.log2 - 64 * degree := Nat.mul_div_le _ _
    have hpos' : 0 < degree * cut := Nat.mul_pos (Nat.pos_of_ne_zero hd) hpos
    have hne : n ≠ 0 := by
      rintro rfl
      rw [Nat.log2_zero, Nat.zero_sub] at hmul
      omega
    have hlog : (cut + 64) * degree ≤ n.log2 := by
      rw [Nat.add_mul, Nat.mul_comm cut]
      omega
    have hpow : (2 ^ (cut + 64)) ^ degree ≤ (2 * unitsPerOne) ^ degree := by
      rw [← Nat.pow_mul]
      exact ((Nat.pow_le_pow_right Nat.two_pos hlog).trans ((Nat.le_log2 hne).mp le_rfl)).trans hn
    have hle := (Nat.pow_le_pow_iff_left hd).mp hpow
    rw [Nat.pow_add] at hle
    refine Nat.le_of_mul_le_mul_left ?_ Nat.two_pos
    calc 2 * (2 ^ cut * 2 ^ (42 : Nat)) = 2 ^ cut * 2 ^ (43 : Nat) := by
          rw [Nat.mul_left_comm, ← Nat.pow_succ']
      _ ≤ 2 ^ cut * 2 ^ (64 : Nat) := Nat.mul_le_mul_left _ (by norm_num)
      _ ≤ 2 * unitsPerOne := hle

/-- The rounded root of a number of units, and the exact one. -/
theorem exists_roundedRoot {degree units : Nat} (hd : degree ≠ 0) (negative : Bool)
    (hunits : units ≤ 2 * unitsPerOne) :
    ∃ root : ℝ, 0 ≤ root ∧ root ≤ 2 ∧ root ^ degree = units / unitsPerOne ∧
      (roundedRoot degree negative units).isFinite = true ∧
      |((roundedRoot degree negative units).value : ℝ) - (if negative then -root else root)|
        ≤ 1 / 2 ^ 39 := by
  have hU : (0 : ℝ) < unitsPerOne := Nat.cast_pos.mpr unitsPerOne_pos
  set root : ℝ := (units / unitsPerOne : ℝ) ^ (degree : ℝ)⁻¹ with hroot
  have hnonneg : 0 ≤ root := by positivity
  have hpow : root ^ degree = units / unitsPerOne := Real.rpow_inv_natCast_pow (by positivity) hd
  have hle : root ≤ 2 := by
    refine (pow_le_pow_iff_left₀ hnonneg two_pos.le hd).mp ?_
    rw [hpow, div_le_iff₀ hU]
    calc (units : ℝ) ≤ 2 * unitsPerOne := by exact_mod_cast hunits
      _ ≤ 2 ^ degree * unitsPerOne :=
        mul_le_mul_of_nonneg_right (le_self_pow₀ one_le_two hd) hU.le
  refine ⟨root, hnonneg, hle, hpow, ?_⟩
  rw [roundedRoot]
  set n := units * unitsPerOne ^ (degree - 1) with hn
  have hnle : n ≤ (2 * unitsPerOne) ^ degree := by
    calc n ≤ 2 * unitsPerOne * unitsPerOne ^ (degree - 1) := Nat.mul_le_mul_right _ hunits
      _ = 2 * unitsPerOne ^ degree := by
        rw [Nat.mul_assoc, ← Nat.pow_succ', Nat.succ_eq_add_one,
          Nat.sub_add_cancel (Nat.pos_of_ne_zero hd)]
      _ ≤ 2 ^ degree * unitsPerOne ^ degree := Nat.mul_le_mul_right _ (Nat.le_self_pow hd 2)
      _ = (2 * unitsPerOne) ^ degree := (Nat.mul_pow _ _ _).symm
  have hcut := two_pow_cut_le hd hnle
  set cut := (n.log2 - 64 * degree) / degree
  have hexact : (root * unitsPerOne) ^ degree = n := by
    rw [mul_pow, hpow, hn]
    push_cast
    rw [div_mul_eq_mul_div, div_eq_iff hU.ne', mul_assoc, ← pow_succ,
      Nat.sub_add_cancel (Nat.pos_of_ne_zero hd)]
  -- the exact root in units lies between the same two integers as the rounded one
  obtain ⟨hbelow, habove⟩ := floorRoot_mul_pow_mem hd (by positivity) hexact cut
  set s := floorRoot degree (n >>> (degree * cut))
  refine abs_round_sub_le negative Nat.two_pos ?_ ?_
  · rw [abs_of_nonneg hnonneg]
    linarith
  · have hcutr : (2 : ℝ) ^ cut * 2 ^ 42 ≤ unitsPerOne := by exact_mod_cast hcut
    have hsplit (c : ℝ) : c / (2 : Nat) / unitsPerOne - root
        = (c / 2 - root * unitsPerOne) / unitsPerOne := by
      push_cast
      field_simp
    rw [hsplit, abs_div, abs_of_pos hU, div_le_iff₀ hU, Nat.shiftLeft_eq]
    have hmantissa : (s : ℝ) * 2 ^ cut ≤ (((if s ^ degree <<< (degree * cut) = n then 2 * s
        else 2 * s + 1) * 2 ^ cut : Nat) : ℝ) / 2 ∧ (((if s ^ degree <<< (degree * cut) = n
        then 2 * s else 2 * s + 1) * 2 ^ cut : Nat) : ℝ) / 2 ≤ (s + 1) * 2 ^ cut := by
      have hpos : (0 : ℝ) < 2 ^ cut := by positivity
      split_ifs <;> push_cast <;> constructor <;> nlinarith
    rw [abs_le]
    constructor <;> linarith [hmantissa.1, hmantissa.2]

/-- A finite number between zero and two is the number of its units. -/
lemma units_of_between {negative : Bool} {units : Nat} {hgrid : OnGrid units}
    (hx : Between 0 2 (.finite negative units hgrid)) :
    units ≤ 2 * unitsPerOne ∧
      ((value (.finite negative units hgrid) : ℚ) : ℝ) = units / unitsPerOne := by
  have habs := abs_of_nonneg hx.le_value
  rw [value, abs_div, abs_signed, abs_of_pos unitsPerOne_cast_pos] at habs
  refine ⟨units_le_of_within (Between.within (by exact_mod_cast hx)), ?_⟩
  rw [value, ← habs]
  push_cast
  rfl

/-- A negative number of units that is not negative is none, and neither is its root. -/
lemma signed_root {degree : Nat} (hd : degree ≠ 0) {negative : Bool} {units : Nat}
    {hgrid : OnGrid units} (hx : Between 0 2 (.finite negative units hgrid)) {root : ℝ}
    (hroot : root ^ degree = units / unitsPerOne) :
    (if negative then -root else root) = root := by
  have hsign := sign_of_value_nonneg hx.le_value
  cases negative with
  | false => rw [if_neg Bool.false_ne_true]
  | true =>
      have hzero : units = 0 := by simpa using hsign
      rw [hzero, Nat.cast_zero, zero_div, pow_eq_zero_iff hd] at hroot
      rw [if_pos rfl, hroot, neg_zero]

/-- The rounded cube root of a number between zero and two, and the exact one. -/
theorem exists_cbrt {x : Binary64} (hx : Between 0 2 x) :
    ∃ root : ℝ, 0 ≤ root ∧ root ^ 3 = x.value ∧ x.cbrt.isFinite = true ∧
      |(x.cbrt.value : ℝ) - root| ≤ 1 / 2 ^ 39 := by
  obtain ⟨negative, units, hgrid, rfl⟩ := exists_finite hx.isFinite
  obtain ⟨hunits, hvalue⟩ := units_of_between hx
  obtain ⟨root, hnonneg, -, hpow, hfinite, hnear⟩ :=
    exists_roundedRoot three_ne_zero negative hunits
  rw [signed_root (by norm_num) hx hpow] at hnear
  exact ⟨root, hnonneg, hpow.trans hvalue.symm, hfinite, hnear⟩

/-- The rounded square root of a number between zero and two, and the exact one. -/
theorem abs_sqrt_sub_le {x : Binary64} (hx : Between 0 2 x) :
    x.sqrt.isFinite = true ∧ |(x.sqrt.value : ℝ) - √x.value| ≤ 1 / 2 ^ 39 := by
  obtain ⟨negative, units, hgrid, rfl⟩ := exists_finite hx.isFinite
  obtain ⟨hunits, hvalue⟩ := units_of_between hx
  obtain ⟨root, hnonneg, -, hpow, hfinite, hnear⟩ :=
    exists_roundedRoot two_ne_zero negative hunits
  rw [signed_root (by norm_num) hx hpow] at hnear
  have hsign : ¬ (negative && units != 0) = true := by
    rw [sign_of_value_nonneg hx.le_value]
    exact Bool.false_ne_true
  rw [hvalue, ← hpow, Real.sqrt_sq hnonneg, Binary64.sqrt, if_neg hsign]
  exact ⟨hfinite, hnear⟩

/-- The root of zero is zero. -/
lemma value_roundedRoot_zero {degree : Nat} (hd : degree ≠ 0) (negative : Bool) :
    (roundedRoot degree negative 0).value = 0 := by
  have hround := isRounded_round negative 0 Nat.two_pos
  have hzero : Representable 0 := by
    simpa using representable_natCast (n := 0) (by norm_num)
  have hexact : (signed negative 0 : ℚ) / (2 : Nat) / unitsPerOne = 0 := by
    rw [signed_cast, Nat.cast_zero]
    split_ifs <;> simp
  rw [hexact] at hround
  have hroot : roundedRoot degree negative 0 = round negative 0 2 := by
    simp [roundedRoot, floorRoot, hd]
  rw [hroot]
  exact (hround.exact hzero).2

/-- The root of a number that is not negative is not negative. -/
lemma value_roundedRoot_nonneg {degree : Nat} (hd : degree ≠ 0) {negative : Bool} {units : Nat}
    {hgrid : OnGrid units} (hx : Between 0 2 (.finite negative units hgrid)) :
    0 ≤ (roundedRoot degree negative units).value := by
  have hsign := sign_of_value_nonneg hx.le_value
  cases negative with
  | false =>
      refine (isRounded_round false _ Nat.two_pos).value_nonneg ?_
      rw [signed_false]
      positivity
  | true =>
      obtain rfl : units = 0 := by simpa using hsign
      exact (value_roundedRoot_zero hd true).ge

lemma value_cbrt_nonneg {x : Binary64} (hx : Between 0 2 x) : 0 ≤ x.cbrt.value := by
  obtain ⟨negative, units, hgrid, rfl⟩ := exists_finite hx.isFinite
  exact value_roundedRoot_nonneg three_ne_zero hx

lemma value_sqrt_nonneg {x : Binary64} (hx : Between 0 2 x) : 0 ≤ x.sqrt.value := by
  obtain ⟨negative, units, hgrid, rfl⟩ := exists_finite hx.isFinite
  rw [Binary64.sqrt, sign_of_value_nonneg hx.le_value, if_neg Bool.false_ne_true]
  exact value_roundedRoot_nonneg two_ne_zero hx

end Binary64

end Swatch
