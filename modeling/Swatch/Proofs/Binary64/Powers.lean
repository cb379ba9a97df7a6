import Mathlib.Analysis.SpecialFunctions.Pow.Real
import Swatch.Binary64.Power
import Swatch.Proofs.Binary64.Euler
/-!
Rounded powers and real ones.

A power in fixed point is built from square roots, one for each binary digit of the exponent, and
each of them is cut off.  What comes out is never above the exact power, and each digit of the
exponent brings it at most so many units below.

* `fractionalPower_le_rpow`, `rpow_le_fractionalPower_add`: the power in fixed point and the exact
  one.
* `Binary64.abs_pow_sub_le`: the power of a number that is neither above one nor tiny.
-/

namespace Swatch

open Binary64

lemma unitBits_lt : unitBits < 2 ^ (11 : Nat) := by
  rw [unitBits_eq]
  decide

/-! ### Powers of nearby bases -/

/-- A base that is larger by a small part has a power that is larger by no more than that part, if
the exponent is at most one. -/
lemma rpow_le_rpow_add {x y a δ : ℝ} (hx : 0 ≤ x) (hx1 : x ≤ 1) (hy : 0 ≤ y)
    (hxy : y ≤ x * (1 + δ)) (hδ : 0 ≤ δ) (ha : 0 ≤ a) (ha1 : a ≤ 1) : y ^ a ≤ x ^ a + δ := by
  have hpart : (1 + δ) ^ a ≤ 1 + δ :=
    (Real.rpow_le_rpow_of_exponent_le (by linarith) ha1).trans_eq (Real.rpow_one _)
  have hone : x ^ a ≤ 1 := Real.rpow_le_one hx hx1 ha
  have hnonneg : 0 ≤ x ^ a := Real.rpow_nonneg hx a
  calc y ^ a ≤ (x * (1 + δ)) ^ a := Real.rpow_le_rpow hy hxy ha
    _ = x ^ a * (1 + δ) ^ a := Real.mul_rpow hx (by linarith)
    _ ≤ x ^ a * (1 + δ) := mul_le_mul_of_nonneg_left hpart hnonneg
    _ ≤ x ^ a + δ := by nlinarith

/-- The power of a square root. -/
lemma sqrt_rpow {x : ℝ} (hx : 0 ≤ x) (a : ℝ) : √x ^ a = x ^ (a / 2) := by
  rw [Real.sqrt_eq_rpow, ← Real.rpow_mul hx]
  congr 1
  ring

/-! ### Powers in fixed point -/

section FixedPoint

variable {p : Nat}

/-- The square root that a digit of the exponent takes. -/
lemma floorRoot_div_le_sqrt (x : Nat) :
    (floorRoot 2 (x <<< p) : ℝ) / 2 ^ p ≤ √((x : ℝ) / 2 ^ p) := by
  have hle := floorRoot_pow_le two_ne_zero (x <<< p)
  rw [Nat.shiftLeft_eq] at hle ⊢
  have hler : (floorRoot 2 (x * 2 ^ p) : ℝ) ^ 2 ≤ x * 2 ^ p := by exact_mod_cast hle
  refine Real.le_sqrt_of_sq_le ?_
  rw [div_pow, div_le_div_iff₀ (by positivity) (by positivity)]
  calc (floorRoot 2 (x * 2 ^ p) : ℝ) ^ 2 * 2 ^ p ≤ x * 2 ^ p * 2 ^ p :=
        mul_le_mul_of_nonneg_right hler (by positivity)
    _ = x * (2 ^ p) ^ 2 := by ring

lemma sqrt_le_floorRoot_succ_div (x : Nat) :
    √((x : ℝ) / 2 ^ p) ≤ (floorRoot 2 (x <<< p) + 1) / 2 ^ p := by
  have hlt := lt_floorRoot_succ_pow two_ne_zero (x <<< p)
  rw [Nat.shiftLeft_eq] at hlt ⊢
  have hltr : (x : ℝ) * 2 ^ p ≤ (floorRoot 2 (x * 2 ^ p) + 1) ^ 2 := by exact_mod_cast hlt.le
  refine Real.sqrt_le_iff.mpr ⟨by positivity, ?_⟩
  rw [div_pow, div_le_div_iff₀ (by positivity) (by positivity)]
  calc (x : ℝ) * (2 ^ p) ^ 2 = x * 2 ^ p * 2 ^ p := by ring
    _ ≤ (floorRoot 2 (x * 2 ^ p) + 1) ^ 2 * 2 ^ p :=
        mul_le_mul_of_nonneg_right hltr (by positivity)

/-- A first binary digit of an exponent is a square root of the base. -/
lemma rpow_of_high {bits f : Nat} {x : ℝ} (hx : 0 ≤ x) (hf : f < 2 ^ (bits + 1))
    (hhigh : 2 ^ bits ≤ f) : x ^ ((f : ℝ) / 2 ^ (bits + 1))
      = √x * √x ^ (((f % 2 ^ bits : Nat) : ℝ) / 2 ^ bits) := by
  have hrest : f % 2 ^ bits = f - 2 ^ bits := by
    rw [Nat.mod_eq_sub_mod hhigh, Nat.mod_eq_of_lt]
    rw [Nat.pow_succ] at hf
    omega
  have hexponent : (f : ℝ) / 2 ^ (bits + 1)
      = 1 / 2 + (((f - 2 ^ bits : Nat) : ℝ) / 2 ^ bits) / 2 := by
    rw [Nat.cast_sub hhigh, pow_succ]
    push_cast
    field_simp
    ring
  rw [hrest, sqrt_rpow hx, hexponent, Real.rpow_add_of_nonneg hx (by norm_num) (by positivity),
    Real.sqrt_eq_rpow]

lemma rpow_of_low {bits f : Nat} {x : ℝ} (hx : 0 ≤ x) (hlow : f < 2 ^ bits) :
    x ^ ((f : ℝ) / 2 ^ (bits + 1)) = √x ^ (((f % 2 ^ bits : Nat) : ℝ) / 2 ^ bits) := by
  rw [Nat.mod_eq_of_lt hlow, sqrt_rpow hx, pow_succ, div_div]

/-- The power in fixed point is never above the exact one. -/
theorem fractionalPower_le_rpow (bits : Nat) {f : Nat} (hf : f < 2 ^ bits) (x : Nat) :
    (fractionalPower p bits f x : ℝ) / 2 ^ p ≤ ((x : ℝ) / 2 ^ p) ^ ((f : ℝ) / 2 ^ bits) := by
  have hP : (0 : ℝ) < 2 ^ p := by positivity
  induction bits generalizing f x with
  | zero =>
      obtain rfl : f = 0 := by omega
      rw [fractionalPower, Nat.cast_zero, zero_div, Real.rpow_zero, Nat.cast_pow, Nat.cast_two,
        div_self hP.ne']
  | succ bits ih =>
      rw [fractionalPower]
      split_ifs with hzero hhigh
      · rw [hzero, Nat.cast_zero, zero_div, Real.rpow_zero, Nat.cast_pow, Nat.cast_two,
          div_self hP.ne']
      · have hroot := floorRoot_div_le_sqrt (p := p) x
        have hpart := (ih (Nat.mod_lt f (Nat.two_pow_pos bits)) (floorRoot 2 (x <<< p))).trans
          (Real.rpow_le_rpow (by positivity) hroot (by positivity))
        rw [rpow_of_high (by positivity) hf hhigh, Nat.shiftRight_eq_div_pow]
        set r := floorRoot 2 (x <<< p)
        set rest := fractionalPower p bits (f % 2 ^ bits) r
        have hcut : ((r * rest / 2 ^ p : Nat) : ℝ) ≤ r * rest / 2 ^ p := by
          exact_mod_cast Nat.cast_div_le (α := ℝ) (m := r * rest) (n := 2 ^ p)
        calc ((r * rest / 2 ^ p : Nat) : ℝ) / 2 ^ p ≤ r * rest / 2 ^ p / 2 ^ p :=
              div_le_div_of_nonneg_right hcut hP.le
          _ = (r / 2 ^ p) * (rest / 2 ^ p) := by ring
          _ ≤ _ := mul_le_mul hroot hpart (by positivity) (Real.sqrt_nonneg _)
      · have hroot := floorRoot_div_le_sqrt (p := p) x
        rw [rpow_of_low (by positivity) (not_le.mp hhigh)]
        exact (ih (Nat.mod_lt f (Nat.two_pow_pos bits)) (floorRoot 2 (x <<< p))).trans
          (Real.rpow_le_rpow (by positivity) hroot (by positivity))

/-- Square roots of numbers that are neither above one nor tiny are so, too. -/
lemma floorRoot_mem (hp : 7 ≤ p) {x : Nat} (hlow : 2 ^ p ≤ 1024 * x) (hhigh : x ≤ 2 ^ p) :
    2 ^ p ≤ 1024 * floorRoot 2 (x <<< p) ∧ floorRoot 2 (x <<< p) ≤ 2 ^ p := by
  have hP : 2 ^ (7 : Nat) ≤ 2 ^ p := Nat.pow_le_pow_right two_pos hp
  have hle := floorRoot_pow_le two_ne_zero (x <<< p)
  have hlt := lt_floorRoot_succ_pow two_ne_zero (x <<< p)
  rw [Nat.shiftLeft_eq] at hle hlt ⊢
  constructor
  · have hsquare : (2 ^ p) ^ (2 : Nat) < (32 * (floorRoot 2 (x * 2 ^ p) + 1)) ^ (2 : Nat) := by
      calc (2 ^ p) ^ (2 : Nat) = 2 ^ p * 2 ^ p := Nat.pow_two _
        _ ≤ 1024 * x * 2 ^ p := Nat.mul_le_mul_right _ hlow
        _ < 1024 * (floorRoot 2 (x * 2 ^ p) + 1) ^ 2 := by
          rw [Nat.mul_assoc]
          exact Nat.mul_lt_mul_of_pos_left hlt (by norm_num)
        _ = (32 * (floorRoot 2 (x * 2 ^ p) + 1)) ^ (2 : Nat) := by rw [Nat.mul_pow]
    have hroot := lt_of_pow_lt_pow_left₀ 2 (Nat.zero_le _) hsquare
    omega
  · refine (Nat.pow_le_pow_iff_left two_ne_zero).mp (hle.trans ?_)
    rw [Nat.pow_two]
    exact Nat.mul_le_mul_right _ hhigh

/-- One unit more is a small part of a number of units that is not tiny. -/
lemma succ_div_le {n : Nat} (hn : 2 ^ p ≤ 1024 * n) :
    ((n : ℝ) + 1) / 2 ^ p ≤ n / 2 ^ p * (1 + 1024 / 2 ^ p) := by
  have hP : (0 : ℝ) < 2 ^ p := by positivity
  have hn' : (2 : ℝ) ^ p ≤ 1024 * n := by exact_mod_cast hn
  rw [add_div, mul_add, mul_one]
  refine add_le_add_right ?_ _
  rw [div_mul_div_comm, div_le_div_iff₀ hP (by positivity)]
  calc 1 * (2 ^ p * 2 ^ p) = (2 ^ p * 2 ^ p : ℝ) := one_mul _
    _ ≤ n * 1024 * 2 ^ p := mul_le_mul_of_nonneg_right (by linarith) hP.le

/-- What is lost when a root is cut off, in a power of it. -/
lemma sqrt_rpow_le_add (hp : 7 ≤ p) {x : Nat} (hlow : 2 ^ p ≤ 1024 * x) (hhigh : x ≤ 2 ^ p)
    {a : ℝ} (ha : 0 ≤ a) (ha1 : a ≤ 1) : √((x : ℝ) / 2 ^ p) ^ a
      ≤ ((floorRoot 2 (x <<< p) : ℝ) / 2 ^ p) ^ a + 1024 / 2 ^ p := by
  have hP : (0 : ℝ) < 2 ^ p := by positivity
  obtain ⟨hrlow, hrhigh⟩ := floorRoot_mem hp hlow hhigh
  have hrhigh' : (floorRoot 2 (x <<< p) : ℝ) ≤ 2 ^ p := by exact_mod_cast hrhigh
  exact rpow_le_rpow_add (by positivity) ((div_le_one hP).mpr hrhigh') (Real.sqrt_nonneg _)
    ((sqrt_le_floorRoot_succ_div x).trans (succ_div_le hrlow)) (by positivity) ha ha1

/-- What a product of two numbers loses when it is cut off, and when both are cut off before. -/
lemma mul_le_cut {r rest : Nat} {a b loss : ℝ} (hr : r ≤ 2 ^ p) (ha : a ≤ (r + 1) / 2 ^ p)
    (hb : 0 ≤ b) (hb1 : b ≤ 1) (hloss : 0 ≤ loss) (hrest : b ≤ (rest + loss) / 2 ^ p) :
    a * b ≤ ((r * rest / 2 ^ p : Nat) + loss + 2) / 2 ^ p := by
  have hP : (0 : ℝ) < 2 ^ p := by positivity
  have hone : (1 : ℝ) ≤ 2 ^ p := one_le_pow₀ one_le_two
  have hr1 : (r : ℝ) / 2 ^ p ≤ 1 := by
    rw [div_le_one hP]
    exact_mod_cast hr
  have hcut : (r : ℝ) * rest / 2 ^ p ≤ (r * rest / 2 ^ p : Nat) + 1 := by
    have hlt := Nat.lt_div_mul_add (a := r * rest) (Nat.two_pow_pos p)
    rw [div_le_iff₀ hP, add_one_mul]
    exact_mod_cast hlt.le
  calc a * b ≤ (r + 1) / 2 ^ p * b := mul_le_mul_of_nonneg_right ha hb
    _ = r / 2 ^ p * b + 1 / 2 ^ p * b := by ring
    _ ≤ r / 2 ^ p * ((rest + loss) / 2 ^ p) + 1 / 2 ^ p :=
      add_le_add (mul_le_mul_of_nonneg_left hrest (by positivity))
        (mul_le_of_le_one_right (by positivity) hb1)
    _ = (r * rest / 2 ^ p + r / 2 ^ p * loss + 1) / 2 ^ p := by ring
    _ ≤ ((r * rest / 2 ^ p : Nat) + loss + 2) / 2 ^ p := by
      refine div_le_div_of_nonneg_right ?_ hP.le
      linarith [mul_le_of_le_one_left hloss hr1]

/-- A digit of the exponent brings the power in fixed point at most so many units below the exact
one, if the base is not too small. -/
theorem rpow_le_fractionalPower_add (hp : 7 ≤ p) (bits : Nat) {f : Nat} (hf : f < 2 ^ bits)
    {x : Nat} (hlow : 2 ^ p ≤ 1024 * x) (hhigh : x ≤ 2 ^ p) :
    ((x : ℝ) / 2 ^ p) ^ ((f : ℝ) / 2 ^ bits)
      ≤ (fractionalPower p bits f x + 1026 * bits : ℝ) / 2 ^ p := by
  have hP : (0 : ℝ) < 2 ^ p := by positivity
  induction bits generalizing f x with
  | zero =>
      obtain rfl : f = 0 := by omega
      rw [fractionalPower, Nat.cast_zero, zero_div, Real.rpow_zero, Nat.cast_pow, Nat.cast_two,
        mul_zero, add_zero, div_self hP.ne']
  | succ bits ih =>
      have hone : (1 : ℝ) ≤ 2 ^ p := one_le_pow₀ one_le_two
      rw [fractionalPower]
      split_ifs with hzero hdigit
      · rw [hzero, Nat.cast_zero, zero_div, Real.rpow_zero, Nat.cast_pow, Nat.cast_two,
          le_div_iff₀ hP, one_mul]
        exact le_add_of_nonneg_right (by positivity)
      all_goals
        have hmod := Nat.mod_lt f (Nat.two_pow_pos bits)
        obtain ⟨hrlow, hrhigh⟩ := floorRoot_mem hp hlow hhigh
        have hexponent : ((f % 2 ^ bits : Nat) : ℝ) / 2 ^ bits ≤ 1 := by
          rw [div_le_one (by positivity)]
          exact_mod_cast hmod.le
        have hrest := (sqrt_rpow_le_add hp hlow hhigh (by positivity) hexponent).trans
          (add_le_add_left (ih hmod hrlow hrhigh) _)
        rw [← add_div] at hrest
      · have hroot := sqrt_le_floorRoot_succ_div (p := p) x
        have hbase : √((x : ℝ) / 2 ^ p) ≤ 1 := by
          refine Real.sqrt_le_one.mpr ((div_le_one hP).mpr ?_)
          exact_mod_cast hhigh
        have hpower := Real.rpow_le_one (Real.sqrt_nonneg ((x : ℝ) / 2 ^ p)) hbase
          (by positivity : 0 ≤ ((f % 2 ^ bits : Nat) : ℝ) / 2 ^ bits)
        rw [rpow_of_high (by positivity) hf hdigit, Nat.shiftRight_eq_div_pow]
        rw [add_assoc] at hrest
        have hproduct := mul_le_cut hrhigh hroot (Real.rpow_nonneg (Real.sqrt_nonneg _) _) hpower
          (by positivity) hrest
        refine hproduct.trans (div_le_div_of_nonneg_right ?_ hP.le)
        push_cast
        linarith
      · rw [rpow_of_low (by positivity) (not_le.mp hdigit)]
        refine hrest.trans (div_le_div_of_nonneg_right ?_ hP.le)
        push_cast
        linarith

end FixedPoint

namespace Binary64

/-- The power in fixed point of a number of units, and the exact one. -/
lemma abs_fractionalPower_sub_le {u f p : Nat} (hlow : unitsPerOne ≤ 1024 * u)
    (hhigh : u ≤ unitsPerOne) (hf : f < unitsPerOne) (hp : 128 ≤ p) :
    |(fractionalPower p unitBits f ((u <<< p) >>> unitBits) : ℝ) / 2 ^ p
      - ((u : ℝ) / unitsPerOne) ^ ((f : ℝ) / unitsPerOne)| ≤ 1 / 2 ^ 40 := by
  have hP : (0 : ℝ) < 2 ^ p := by positivity
  have hU : (0 : ℝ) < unitsPerOne := Nat.cast_pos.mpr unitsPerOne_pos
  have hUeq : (unitsPerOne : ℝ) = 2 ^ unitBits := by
    rw [unitsPerOne_eq]
    push_cast
    rfl
  rw [Nat.shiftRight_eq_div_pow, Nat.shiftLeft_eq, ← unitsPerOne_eq]
  set x := u * 2 ^ p / unitsPerOne with hx
  have hxhigh : x ≤ 2 ^ p := Nat.div_le_of_le_mul (Nat.mul_le_mul_right _ hhigh)
  have hxlow : 2 ^ p ≤ 1024 * x := by
    have hsplit : 2 ^ p = 1024 * 2 ^ (p - 10) := by
      rw [show (1024 : Nat) = 2 ^ (10 : Nat) from rfl, ← Nat.pow_add]
      congr 1
      omega
    rw [hsplit]
    refine Nat.mul_le_mul_left _ ((Nat.le_div_iff_mul_le unitsPerOne_pos).mpr ?_)
    rw [hsplit]
    calc 2 ^ (p - 10) * unitsPerOne ≤ 2 ^ (p - 10) * (1024 * u) := Nat.mul_le_mul_left _ hlow
      _ = u * (1024 * 2 ^ (p - 10)) := by ring
  -- the base in fixed point is cut off as well
  have hbelow : (x : ℝ) / 2 ^ p ≤ u / unitsPerOne := by
    rw [div_le_div_iff₀ hP hU]
    exact_mod_cast Nat.div_mul_le_self (u * 2 ^ p) unitsPerOne
  have habove : (u : ℝ) / unitsPerOne ≤ x / 2 ^ p * (1 + 1024 / 2 ^ p) := by
    refine le_trans ?_ (succ_div_le hxlow)
    rw [div_le_div_iff₀ hU hP, add_one_mul]
    exact_mod_cast (Nat.lt_div_mul_add unitsPerOne_pos).le
  have hexponent : (f : ℝ) / unitsPerOne ≤ 1 := by
    rw [div_le_one hU]
    exact_mod_cast hf.le
  have hbase := rpow_le_rpow_add (by positivity) ((div_le_one hP).mpr (by exact_mod_cast hxhigh))
    (by positivity) habove (by positivity) (by positivity) hexponent
  have hupper := fractionalPower_le_rpow (p := p) unitBits (unitsPerOne_eq ▸ hf) x
  have hlower := rpow_le_fractionalPower_add (by omega) unitBits (unitsPerOne_eq ▸ hf) hxlow hxhigh
  rw [← hUeq] at hupper hlower
  have hmono := Real.rpow_le_rpow (by positivity) hbelow
    (by positivity : 0 ≤ (f : ℝ) / unitsPerOne)
  have hloss : (1026 * unitBits : ℝ) / 2 ^ p + 1024 / 2 ^ p ≤ 1 / 2 ^ 40 := by
    have hbits : (unitBits : ℝ) ≤ 2 ^ 11 := by exact_mod_cast unitBits_lt.le
    have hp' : (2 : ℝ) ^ 128 ≤ 2 ^ p := pow_le_pow_right₀ one_le_two hp
    rw [← add_div, div_le_div_iff₀ hP (by positivity)]
    linarith
  rw [add_div] at hlower
  rw [abs_le]
  constructor <;> linarith

/-- A power of a positive number of at most one lies between zero and one. -/
lemma between_pow {x y : Binary64} (hx : 0 < x.value) (hone : x.value ≤ 1) (hy : 0 < y.value) :
    Between 0 1 (x.pow y) := by
  obtain ⟨u, hu, rfl⟩ := exists_of_value_pos hx
  obtain ⟨v, hv, rfl⟩ := exists_of_value_pos hy
  have hU := unitsPerOne_cast_pos
  have hle : u ≤ unitsPerOne := by
    rw [value, signed_false, div_le_one hU] at hone
    exact_mod_cast hone
  rw [pow]
  set whole := v / unitsPerOne
  set p := 128 + (unitBits - u.log2)
  have hbase : (u <<< p) >>> unitBits ≤ 2 ^ p := by
    rw [Nat.shiftRight_eq_div_pow, Nat.shiftLeft_eq, ← unitsPerOne_eq]
    exact Nat.div_le_of_le_mul (Nat.mul_le_mul_right _ hle)
  have hpart := fractionalPower_le unitBits (v % unitsPerOne) hbase
  set part := fractionalPower p unitBits (v % unitsPerOne) ((u <<< p) >>> unitBits)
  have hden : 0 < unitsPerOne ^ whole <<< p := by
    rw [Nat.shiftLeft_eq]
    exact Nat.mul_pos (Nat.pow_pos unitsPerOne_pos) (Nat.two_pow_pos p)
  have hnum : u ^ whole * part ≤ unitsPerOne ^ whole <<< p := by
    rw [Nat.shiftLeft_eq]
    exact Nat.mul_le_mul (Nat.pow_le_pow_left hle whole) hpart
  refine (isRounded_round false _ hden).between (representable_natCast (n := 0) (by norm_num))
    representable_one ?_ ?_
  · rw [signed_false]
    positivity
  · have hdenq : (0 : ℚ) < (unitsPerOne ^ whole <<< p : Nat) := Nat.cast_pos.mpr hden
    have hnumq : ((u ^ whole * part : Nat) : ℚ) ≤ (unitsPerOne ^ whole <<< p : Nat) :=
      Nat.cast_le.mpr hnum
    rw [signed_false, div_div, div_le_one (mul_pos hdenq hU), Int.cast_natCast, Nat.cast_mul]
    exact mul_le_mul_of_nonneg_right hnumq hU.le

/-- The rounded power of a number that is neither above one nor tiny, and the exact one. -/
theorem abs_pow_sub_le {x y : Binary64} (hlow : 1 ≤ 1024 * x.value) (hhigh : x.value ≤ 1)
    (hy : 0 < y.value) : (x.pow y).isFinite = true ∧
      |((x.pow y).value : ℝ) - (x.value : ℝ) ^ (y.value : ℝ)| ≤ 1 / 2 ^ 39 := by
  obtain ⟨u, hu, rfl⟩ := exists_of_value_pos (x := x) (by linarith)
  obtain ⟨v, hv, rfl⟩ := exists_of_value_pos hy
  have hUq := unitsPerOne_cast_pos
  have hU : (0 : ℝ) < unitsPerOne := Nat.cast_pos.mpr unitsPerOne_pos
  have hvalue (n : Nat) (hn : OnGrid n) :
      ((value (.finite false n hn) : ℚ) : ℝ) = (n : ℝ) / unitsPerOne := by
    rw [value, signed_false]
    push_cast
    rfl
  have hulow : unitsPerOne ≤ 1024 * u := by
    rw [value, signed_false, ← mul_div_assoc, one_le_div hUq] at hlow
    exact_mod_cast hlow
  have huhigh : u ≤ unitsPerOne := by
    rw [value, signed_false, div_le_one hUq] at hhigh
    exact_mod_cast hhigh
  rw [hvalue, hvalue, pow]
  set p := 128 + (unitBits - u.log2) with hp
  have hpart := abs_fractionalPower_sub_le hulow huhigh (Nat.mod_lt v unitsPerOne_pos)
    (p := p) (by omega)
  set part := fractionalPower p unitBits (v % unitsPerOne) ((u <<< p) >>> unitBits)
  set base : ℝ := (u : ℝ) / unitsPerOne with hbase
  have hbase0 : 0 ≤ base := by positivity
  have hbase1 : base ≤ 1 := (div_le_one hU).mpr (by exact_mod_cast huhigh)
  -- the whole part of the exponent multiplies exactly
  have hsplit : base ^ ((v : ℝ) / unitsPerOne)
      = base ^ (v / unitsPerOne) * base ^ (((v % unitsPerOne : Nat) : ℝ) / unitsPerOne) := by
    have hv : (v : ℝ) = unitsPerOne * (v / unitsPerOne : Nat) + (v % unitsPerOne : Nat) := by
      exact_mod_cast (Nat.div_add_mod v unitsPerOne).symm
    rw [hv, add_div, mul_div_cancel_left₀ _ hU.ne',
      Real.rpow_add_of_nonneg hbase0 (by positivity) (by positivity), Real.rpow_natCast]
  have hden : 0 < unitsPerOne ^ (v / unitsPerOne) <<< p := by
    rw [Nat.shiftLeft_eq]
    exact Nat.mul_pos (Nat.pow_pos unitsPerOne_pos) (Nat.two_pow_pos p)
  have hmem : base ^ ((v : ℝ) / unitsPerOne) ≤ 1 := Real.rpow_le_one hbase0 hbase1 (by positivity)
  refine abs_round_sub_le false hden ?_ ?_
  · rw [abs_of_nonneg (by positivity)]
    linarith
  · have hquotient : ((u ^ (v / unitsPerOne) * part * unitsPerOne : Nat) : ℝ)
        / (unitsPerOne ^ (v / unitsPerOne) <<< p : Nat) / unitsPerOne
          = base ^ (v / unitsPerOne) * (part / 2 ^ p) := by
      rw [Nat.shiftLeft_eq, hbase]
      push_cast
      rw [div_pow]
      field_simp
    rw [hquotient, hsplit, ← mul_sub, abs_mul, abs_of_nonneg (pow_nonneg hbase0 _)]
    exact (mul_le_of_le_one_left (abs_nonneg _) (pow_le_one₀ hbase0 hbase1)).trans hpart

end Binary64

end Swatch
