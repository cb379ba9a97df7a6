import Swatch.Proofs.Binary64.Bounds
import Swatch.Proofs.Binary64.Rounding
/-!
How far results are from exact ones.

The numbers that colours are computed with are of moderate size, so one bound serves for all their
roundings, and the error of a result is counted in such roundings.

* `abs_nearest_sub_le`: rounding moves a number of at most 1024 by at most one `roundoff`.
* `Binary64.Near`: a finite number is within so many roundings of a rational one.
* `Near.add`, `Near.sub`, `Near.mul`, `Near.div`, …: how the count grows with each operation.
* `Binary64.NearWithin`: the same with a bound of the rational number, so that the conditions on the
  sizes are conditions on numerals.
-/

namespace Swatch

/-! ### One rounding -/

/-- More than what the rounding of a number of at most 1024 can move it by. -/
def roundoff : ℚ := 1 / 2 ^ 40

lemma roundoff_pos : 0 < roundoff := by norm_num [roundoff]

/-- The nearest whole number is at most a half away. -/
lemma abs_two_mul_nearestEven_sub_le (num : Nat) {den : Nat} (hd : 0 < den) :
    |2 * ((nearestEven num den : ℚ) * den - num)| ≤ den := by
  have hdivmod := Nat.div_add_mod num den
  have hlt := Nat.mod_lt num hd
  have hcases : nearestEven num den = num / den ∧ 2 * (num % den) ≤ den
      ∨ nearestEven num den = num / den + 1 ∧ den ≤ 2 * (num % den) := by
    unfold nearestEven
    grind
  have hq : (num : ℚ) = den * (num / den : Nat) + (num % den : Nat) := by
    exact_mod_cast hdivmod.symm
  have hltq : ((num % den : Nat) : ℚ) < den := Nat.cast_lt.mpr hlt
  have hpos : (0 : ℚ) ≤ (num % den : Nat) := Nat.cast_nonneg _
  rw [abs_le]
  rcases hcases with ⟨heven, hle⟩ | ⟨heven, hle⟩
  · have hleq : 2 * ((num % den : Nat) : ℚ) ≤ den := by exact_mod_cast hle
    rw [heven, hq]
    constructor <;> linarith
  · have hleq : (den : ℚ) ≤ 2 * ((num % den : Nat) : ℚ) := by exact_mod_cast hle
    rw [heven, hq]
    push_cast
    constructor <;> linarith

/-- The grid around a quotient is no coarser than one unit or 52 places after its first digit. -/
lemma spacing_le (num : Nat) {den : Nat} (hd : 0 < den) :
    ((2 ^ ((num / den).log2 - 52) : Nat) : ℚ) ≤ 1 + (num : ℚ) / den / 2 ^ 52 := by
  have hdq : (0 : ℚ) < den := Nat.cast_pos.mpr hd
  have hnonneg : (0 : ℚ) ≤ (num : ℚ) / den / 2 ^ 52 := by positivity
  rcases Nat.lt_or_ge (num / den).log2 52 with hlt | hge
  · rw [Nat.sub_eq_zero_of_le hlt.le, Nat.pow_zero, Nat.cast_one]
    linarith
  · have hne : num / den ≠ 0 := by
      intro hzero
      rw [hzero] at hge
      exact absurd hge (by decide)
    have hpow : 2 ^ ((num / den).log2 - 52) * 2 ^ (52 : Nat) ≤ num / den := by
      rw [← Nat.pow_add, Nat.sub_add_cancel hge]
      exact (Nat.le_log2 hne).mp le_rfl
    have hpowq : ((2 ^ ((num / den).log2 - 52) : Nat) : ℚ) * 2 ^ 52 ≤ (num : ℚ) / den := by
      refine le_trans ?_ (Nat.cast_div_le (m := num) (n := den))
      exact_mod_cast hpow
    have hle : ((2 ^ ((num / den).log2 - 52) : Nat) : ℚ) ≤ (num : ℚ) / den / 2 ^ 52 := by
      rw [le_div_iff₀ (by positivity)]
      exact hpowq
    linarith

/-- Rounding to the grid moves a quotient by at most half of the spacing around it. -/
lemma abs_roundUnits_sub_le (num : Nat) {den : Nat} (hd : 0 < den) :
    |(roundUnits num den : ℚ) - num / den| ≤ (1 + (num : ℚ) / den / 2 ^ 52) / 2 := by
  have hdq : (0 : ℚ) < den := Nat.cast_pos.mpr hd
  have hspacing := spacing_le num hd
  set spacing := 2 ^ ((num / den).log2 - 52) with hs
  have hspos : 0 < spacing := Nat.two_pow_pos _
  have hround : roundUnits num den = nearestEven num (den * spacing) * spacing := by
    rw [roundUnits, Nat.shiftLeft_eq, Nat.shiftLeft_eq, hs]
  have heven := abs_two_mul_nearestEven_sub_le num (Nat.mul_pos hd hspos)
  have hmul : 2 * ((nearestEven num (den * spacing) : ℚ) * (den * spacing : Nat) - num)
      = 2 * den * ((roundUnits num den : ℚ) - num / den) := by
    rw [hround]
    push_cast
    field_simp
  rw [hmul, abs_mul, abs_of_pos (by positivity : (0 : ℚ) < 2 * den), Nat.cast_mul] at heven
  have hle : |(roundUnits num den : ℚ) - num / den| ≤ spacing / 2 := by
    rw [le_div_iff₀ two_pos]
    refine le_of_mul_le_mul_left ?_ hdq
    calc (den : ℚ) * (|(roundUnits num den : ℚ) - num / den| * 2)
        = 2 * den * |(roundUnits num den : ℚ) - num / den| := by ring
      _ ≤ den * spacing := heven
  linarith

lemma two_pow_le_unitsPerOne : (2 : ℚ) ^ 42 ≤ unitsPerOne := by
  have hnat : 2 ^ (42 : Nat) ≤ unitsPerOne := by
    rw [unitsPerOne_eq]
    exact Nat.pow_le_pow_right Nat.two_pos (le_unitBits (by norm_num))
  exact_mod_cast hnat

/-- Rounding moves a number of moderate size by little. -/
theorem abs_nearest_sub_le {q : ℚ} (hq : |q| ≤ 1024) : |nearest q - q| ≤ roundoff := by
  have hU := unitsPerOne_cast_pos
  have hmagnitude : |nearest q - q| = |nearestMagnitude q - abs q| := by
    rw [nearest]
    split_ifs with hneg
    · rw [abs_of_neg hneg, ← abs_neg]
      congr 1
      ring
    · rw [abs_of_nonneg (not_lt.mp hneg)]
  have herror := abs_roundUnits_sub_le (q.num.natAbs * unitsPerOne) q.den_pos
  have hquotient : ((q.num.natAbs * unitsPerOne : Nat) : ℚ) / q.den = |q| * unitsPerOne := by
    rw [abs_eq_natAbs_div_den]
    push_cast
    ring
  rw [hquotient] at herror
  have hunits : |nearestMagnitude q - abs q| * unitsPerOne
      ≤ (1 + |q| * unitsPerOne / 2 ^ 52) / 2 := by
    rw [← abs_of_pos hU, ← abs_mul, abs_of_pos hU, sub_mul, nearestMagnitude,
      div_mul_cancel₀ _ hU.ne']
    exact herror
  have hone := two_pow_le_unitsPerOne
  rw [hmagnitude, roundoff]
  refine le_of_mul_le_mul_right (hunits.trans ?_) hU
  have hscaled : |q| * unitsPerOne ≤ 1024 * unitsPerOne := mul_le_mul_of_nonneg_right hq hU.le
  linarith

/-! ### Counted errors -/

namespace Binary64

/-- A finite number is within so many roundings of a rational number. -/
structure Near (k : Nat) (q : ℚ) (x : Binary64) : Prop where
  isFinite : x.isFinite = true
  abs_sub_le : |x.value - q| ≤ k * roundoff

/-- The count may be taken larger. -/
lemma Near.mono {k l : Nat} {q : ℚ} {x : Binary64} (h : Near k q x) (hkl : k ≤ l) :
    Near l q x := by
  refine ⟨h.isFinite, h.abs_sub_le.trans ?_⟩
  exact mul_le_mul_of_nonneg_right (Nat.cast_le.mpr hkl) roundoff_pos.le

/-- So many roundings come to less than a part in a million. -/
lemma Near.abs_sub_le_of_le {k : Nat} {q : ℚ} {x : Binary64} (h : Near k q x)
    (hk : k ≤ 2 ^ (20 : Nat)) : |x.value - q| ≤ 1 / 2 ^ 20 := by
  refine h.abs_sub_le.trans ?_
  have hkq : (k : ℚ) ≤ 2 ^ 20 := by exact_mod_cast hk
  rw [roundoff]
  calc (k : ℚ) * (1 / 2 ^ 40) ≤ 2 ^ 20 * (1 / 2 ^ 40) :=
        mul_le_mul_of_nonneg_right hkq (by positivity)
    _ = 1 / 2 ^ 20 := by norm_num

/-- A number is within no rounding of its value. -/
lemma near_of_value {q : ℚ} {x : Binary64} (hx : x.isFinite = true) (h : x.value = q) :
    Near 0 q x :=
  ⟨hx, by simp [h]⟩

lemma near_self {x : Binary64} (hx : x.isFinite = true) : Near 0 x.value x := near_of_value hx rfl

/-- The errors as errors of real numbers. -/
lemma Near.abs_sub_le_real {k : Nat} {q : ℚ} {x : Binary64} (h : Near k q x) :
    |(x.value : ℝ) - q| ≤ k / 2 ^ 40 := by
  have hreal : ((|x.value - q| : ℚ) : ℝ) ≤ ((k * roundoff : ℚ) : ℝ) := Rat.cast_le.mpr h.abs_sub_le
  rw [roundoff] at hreal
  push_cast at hreal
  rwa [mul_one_div] at hreal

/-- What is rounded from something near is near, one rounding more. -/
lemma IsRounded.near {k : Nat} {p q : ℚ} {x : Binary64} (h : IsRounded p x)
    (hpq : |p - q| ≤ k * roundoff) (hk : k ≤ 2 ^ (20 : Nat)) (hq : |q| ≤ 512) :
    Near (k + 1) q x := by
  have hkq : (k : ℚ) * roundoff ≤ 1 := by
    have hkq : (k : ℚ) ≤ 2 ^ 20 := by exact_mod_cast hk
    calc (k : ℚ) * roundoff ≤ 2 ^ 20 * roundoff :=
          mul_le_mul_of_nonneg_right hkq roundoff_pos.le
      _ ≤ 1 := by norm_num [roundoff]
  have hp : |p| ≤ 1024 := by
    have := abs_sub_abs_le_abs_sub p q
    linarith
  have hbound : Representable 1024 := by
    exact_mod_cast representable_natCast (n := 1024) (by norm_num)
  have hfinite := (h.between hbound.neg hbound (abs_le.mp hp).1 (abs_le.mp hp).2).isFinite
  refine ⟨hfinite, ?_⟩
  rw [h.value_eq hfinite]
  push_cast
  calc |nearest p - q| ≤ |nearest p - p| + |p - q| := abs_sub_le _ _ _
    _ ≤ roundoff + k * roundoff := add_le_add (abs_nearest_sub_le hp) hpq
    _ = (k + 1) * roundoff := by ring

/-- An integer of 53 bits is not rounded. -/
lemma near_ofNat {n : Nat} (hn : n ≤ 2 ^ (53 : Nat)) : Near 0 n (OfNat.ofNat n : Binary64) :=
  near_of_value (isFinite_ofNat hn) (value_ofNat hn)

lemma near_zero : Near 0 0 (0 : Binary64) := by
  have h : Near 0 ((0 : Nat) : ℚ) (0 : Binary64) := near_ofNat (by norm_num)
  rwa [Nat.cast_zero] at h

lemma near_one : Near 0 1 (1 : Binary64) := by
  have h : Near 0 ((1 : Nat) : ℚ) (1 : Binary64) := near_ofNat (by norm_num)
  rwa [Nat.cast_one] at h

/-- The decimal `m / 10 ^ e` as a rational number. -/
lemma ofScientific_eq_div (m e : Nat) :
    (OfScientific.ofScientific m true e : ℚ) = (m : ℚ) / 10 ^ e := by
  rw [show (OfScientific.ofScientific m true e : ℚ) = Rat.ofScientific m true e from rfl,
    Rat.ofScientific_true_def, Rat.mkRat_eq_div]
  push_cast
  rfl

/-- A decimal that is written in a definition is rounded once. -/
lemma near_ofScientific {m e : Nat} (h : m ≤ 512 * 10 ^ e) :
    Near 1 (OfScientific.ofScientific m true e) (OfScientific.ofScientific m true e) := by
  rw [ofScientific_eq_div]
  refine (isRounded_ofScientific m e).near (k := 0) (by simp) (by norm_num) ?_
  rw [abs_of_nonneg (by positivity), div_le_iff₀ (by positivity)]
  exact_mod_cast h

section Operations

variable {a b : Nat} {p q : ℚ} {x y : Binary64}

lemma Near.neg (hx : Near a p x) : Near a (-p) (-x) := by
  refine ⟨by rw [isFinite_neg]; exact hx.isFinite, ?_⟩
  rw [value_neg, neg_sub_neg, abs_sub_comm]
  exact hx.abs_sub_le

lemma Near.abs (hx : Near a p x) : Near a |p| x.abs := by
  refine ⟨by rw [isFinite_abs]; exact hx.isFinite, ?_⟩
  rw [value_abs]
  exact (abs_abs_sub_abs_le _ _).trans hx.abs_sub_le

/-- The errors of the terms add up, and the sum is rounded. -/
lemma Near.add (hx : Near a p x) (hy : Near b q y) (hab : a + b ≤ 2 ^ (20 : Nat))
    (hpq : |p + q| ≤ 512) : Near (a + b + 1) (p + q) (x + y) := by
  refine (isRounded_add hx.isFinite hy.isFinite).near ?_ hab hpq
  have hsplit : x.value + y.value - (p + q) = (x.value - p) + (y.value - q) := by ring
  rw [hsplit]
  push_cast
  rw [add_mul]
  exact (abs_add_le _ _).trans (add_le_add hx.abs_sub_le hy.abs_sub_le)

/-- The errors of a difference add up like those of a sum. -/
lemma Near.sub (hx : Near a p x) (hy : Near b q y) (hab : a + b ≤ 2 ^ (20 : Nat))
    (hpq : |p - q| ≤ 512) : Near (a + b + 1) (p - q) (x - y) := by
  refine (isRounded_sub hx.isFinite hy.isFinite).near ?_ hab hpq
  have hsplit : x.value - y.value - (p - q) = (x.value - p) - (y.value - q) := by ring
  rw [hsplit]
  push_cast
  rw [add_mul]
  exact (abs_sub _ _).trans (add_le_add hx.abs_sub_le hy.abs_sub_le)

/-- The error of each factor counts as often as the other factor is large. -/
lemma Near.mul {k l : Nat} (hx : Near a p x) (hy : Near b q y) (hp : |p| ≤ k) (hq : |q| ≤ l)
    (hab : a * l + b * k + 1 ≤ 2 ^ (20 : Nat)) (hb : b ≤ 2 ^ (20 : Nat)) (ha : a ≤ 2 ^ (20 : Nat))
    (hkl : k * l ≤ 512) : Near (a * l + b * k + 2) (p * q) (x * y) := by
  refine (isRounded_mul hx.isFinite hy.isFinite).near ?_ hab ?_
  · have hsplit : x.value * y.value - p * q
        = (x.value - p) * q + (y.value - q) * p + (x.value - p) * (y.value - q) := by ring
    have h1 : |(x.value - p) * q| ≤ a * roundoff * l := by
      rw [abs_mul]
      exact mul_le_mul hx.abs_sub_le hq (abs_nonneg _) (by have := roundoff_pos; positivity)
    have h2 : |(y.value - q) * p| ≤ b * roundoff * k := by
      rw [abs_mul]
      exact mul_le_mul hy.abs_sub_le hp (abs_nonneg _) (by have := roundoff_pos; positivity)
    -- the product of both errors is less than one rounding
    have h3 : |(x.value - p) * (y.value - q)| ≤ roundoff := by
      have haq : (a : ℚ) ≤ 2 ^ 20 := by exact_mod_cast ha
      have hbq : (b : ℚ) ≤ 2 ^ 20 := by exact_mod_cast hb
      rw [abs_mul]
      calc |x.value - p| * |y.value - q| ≤ (2 ^ 20 * roundoff) * (2 ^ 20 * roundoff) := by
            refine mul_le_mul (hx.abs_sub_le.trans ?_) (hy.abs_sub_le.trans ?_) (abs_nonneg _) ?_
            · exact mul_le_mul_of_nonneg_right haq roundoff_pos.le
            · exact mul_le_mul_of_nonneg_right hbq roundoff_pos.le
            · exact mul_nonneg (by positivity) roundoff_pos.le
        _ = roundoff := by norm_num [roundoff]
    rw [hsplit]
    push_cast
    calc _ ≤ |(x.value - p) * q| + |(y.value - q) * p| + |(x.value - p) * (y.value - q)| :=
          abs_add_three _ _ _
      _ ≤ a * roundoff * l + b * roundoff * k + roundoff := add_le_add (add_le_add h1 h2) h3
      _ = (a * l + b * k + 1) * roundoff := by ring
  · have hklq : (k : ℚ) * l ≤ 512 := by exact_mod_cast hkl
    rw [abs_mul]
    exact (mul_le_mul hp hq (abs_nonneg _) (Nat.cast_nonneg k)).trans hklq

/-- A quotient of at most one, by a divisor that is not too small. -/
lemma Near.div {c : Nat} (hx : Near a p x) (hy : Near b q y) (hpq : |p| ≤ q)
    (hy' : 1 ≤ c * y.value) (hab : c * (a + b) ≤ 2 ^ (20 : Nat)) :
    Near (c * (a + b) + 1) (p / q) (x / y) := by
  have hypos : 0 < y.value := by
    by_contra hle
    have : (c : ℚ) * y.value ≤ 0 := mul_nonpos_of_nonneg_of_nonpos (Nat.cast_nonneg c)
      (not_lt.mp hle)
    linarith
  have hone : |p / q| ≤ 1 := by
    rw [abs_div]
    refine div_le_one_of_le₀ ?_ (abs_nonneg q)
    exact hpq.trans (le_abs_self q)
  refine (isRounded_div hx.isFinite hy.isFinite hypos.ne').near ?_ hab (hone.trans (by norm_num))
  have hpart : |(x.value - p) - p / q * (y.value - q)| ≤ (a + b) * roundoff := by
    calc |(x.value - p) - p / q * (y.value - q)|
        ≤ |x.value - p| + |p / q * (y.value - q)| := abs_sub _ _
      _ ≤ a * roundoff + b * roundoff := by
          refine add_le_add hx.abs_sub_le ?_
          rw [abs_mul]
          exact (mul_le_of_le_one_left (abs_nonneg _) hone).trans hy.abs_sub_le
      _ = (a + b) * roundoff := by ring
  rcases (abs_nonneg p).trans hpq |>.eq_or_lt with hzero | hqpos
  · -- nothing divided by nothing counts as nothing
    have hp : p = 0 := abs_nonpos_iff.mp (hzero ▸ hpq)
    rw [hp, ← hzero, div_zero, sub_zero, abs_div, abs_of_pos hypos, div_le_iff₀ hypos]
    rw [hp, ← hzero, zero_div, zero_mul, sub_zero, sub_zero] at hpart
    have hscale : 0 ≤ ((a : ℚ) + b) * roundoff := by have := roundoff_pos; positivity
    push_cast
    nlinarith
  · have hsplit : x.value / y.value - p / q
        = ((x.value - p) - p / q * (y.value - q)) / y.value := by
      field_simp
      ring
    rw [hsplit, abs_div, abs_of_pos hypos, div_le_iff₀ hypos]
    have hscale : 0 ≤ ((a : ℚ) + b) * roundoff := by have := roundoff_pos; positivity
    push_cast
    nlinarith

/-- Division by an integer. -/
lemma Near.div_ofNat {n : Nat} (hx : Near a p x) (hn : n ≤ 2 ^ (53 : Nat)) (hpos : 0 < n)
    (ha : a ≤ 2 ^ (20 : Nat)) (hp : |p| ≤ 512) : Near (a + 1) (p / n) (x / OfNat.ofNat n) := by
  have hvalue : (OfNat.ofNat n : Binary64).value = n := value_ofNat hn
  have hone : (1 : ℚ) ≤ n := by exact_mod_cast hpos
  have hnpos : (0 : ℚ) < n := by linarith
  have hround := isRounded_div hx.isFinite (isFinite_ofNat hn) (by rw [hvalue]; exact hnpos.ne')
  rw [hvalue] at hround
  refine hround.near ?_ ha ?_
  · rw [← sub_div, abs_div, abs_of_pos hnpos]
    exact (div_le_self (abs_nonneg _) hone).trans hx.abs_sub_le
  · rw [abs_div, abs_of_pos hnpos]
    exact (div_le_self (abs_nonneg _) hone).trans hp

end Operations

/-! ### Near numbers of bounded size -/

/-- A finite number is within so many roundings of a rational number that is not larger than so
much. -/
structure NearWithin (k b : Nat) (q : ℚ) (x : Binary64) : Prop where
  near : Near k q x
  abs_le : |q| ≤ b

section NearWithin

variable {a b k l : Nat} {p q : ℚ} {x y : Binary64}

lemma nearWithin_self (hx : x.isFinite = true) (h : |x.value| ≤ b) : NearWithin 0 b x.value x :=
  ⟨near_self hx, h⟩

/-- A number that is not negative, by a bound. -/
lemma nearWithin_of_between (hx : Between 0 b x) : NearWithin 0 b x.value x :=
  nearWithin_self hx.isFinite (by rw [abs_of_nonneg hx.le_value]; exact hx.value_le)

/-- A decimal that is written in a definition, with its size. -/
lemma nearWithin_ofScientific {m e : Nat} (h : m ≤ b * 10 ^ e) (hb : b ≤ 512) :
    NearWithin 1 b (OfScientific.ofScientific m true e) (OfScientific.ofScientific m true e) := by
  refine ⟨near_ofScientific (h.trans (Nat.mul_le_mul_right _ hb)), ?_⟩
  rw [ofScientific_eq_div, abs_of_nonneg (by positivity), div_le_iff₀ (by positivity)]
  exact_mod_cast h

/-- The count and the bound may be taken larger. -/
lemma NearWithin.mono (hx : NearWithin a k p x) (hab : a ≤ b) (hkl : k ≤ l) :
    NearWithin b l p x :=
  ⟨hx.near.mono hab, hx.abs_le.trans (Nat.cast_le.mpr hkl)⟩

lemma NearWithin.neg (hx : NearWithin a k p x) : NearWithin a k (-p) (-x) :=
  ⟨hx.near.neg, by rw [abs_neg]; exact hx.abs_le⟩

/-- The errors and the sizes of the terms add up. -/
lemma NearWithin.add (hx : NearWithin a k p x) (hy : NearWithin b l q y)
    (hab : a + b ≤ 2 ^ (20 : Nat)) (hkl : k + l ≤ 512) :
    NearWithin (a + b + 1) (k + l) (p + q) (x + y) := by
  have hbound : |p + q| ≤ (k + l : Nat) := by
    push_cast
    exact (abs_add_le _ _).trans (add_le_add hx.abs_le hy.abs_le)
  exact ⟨hx.near.add hy.near hab (hbound.trans (by exact_mod_cast hkl)), hbound⟩

lemma NearWithin.sub (hx : NearWithin a k p x) (hy : NearWithin b l q y)
    (hab : a + b ≤ 2 ^ (20 : Nat)) (hkl : k + l ≤ 512) :
    NearWithin (a + b + 1) (k + l) (p - q) (x - y) := by
  have hbound : |p - q| ≤ (k + l : Nat) := by
    push_cast
    exact (abs_sub _ _).trans (add_le_add hx.abs_le hy.abs_le)
  exact ⟨hx.near.sub hy.near hab (hbound.trans (by exact_mod_cast hkl)), hbound⟩

/-- The errors of the factors are weighted by the sizes, which are multiplied. -/
lemma NearWithin.mul (hx : NearWithin a k p x) (hy : NearWithin b l q y)
    (hab : a * l + b * k + 1 ≤ 2 ^ (20 : Nat)) (hb : b ≤ 2 ^ (20 : Nat)) (ha : a ≤ 2 ^ (20 : Nat))
    (hkl : k * l ≤ 512) : NearWithin (a * l + b * k + 2) (k * l) (p * q) (x * y) := by
  refine ⟨hx.near.mul hy.near hx.abs_le hy.abs_le hab hb ha hkl, ?_⟩
  rw [abs_mul, Nat.cast_mul]
  exact mul_le_mul hx.abs_le hy.abs_le (abs_nonneg _) (Nat.cast_nonneg k)

end NearWithin

end Binary64

end Swatch
