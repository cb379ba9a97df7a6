import Swatch.Binary64.Rounding
import Swatch.Proofs.Binary64.Nearest
/-!
Floating-point numbers as rational numbers.

* `Binary64.value`: the rational number that a finite number is.
* `Binary64.IsRounded`: a number is what a rational number is rounded to.
* `Binary64.isRounded_add`, `isRounded_sub`, `isRounded_mul`, `isRounded_div`: each operation on
  finite numbers rounds the exact result.
* `Binary64.lt_iff`, `le_iff`, `beq_iff`: finite numbers are compared by their values.
* `Binary64.Between`: a finite number lies between two bounds; `IsRounded.between` says that
  rounding does not pass a bound that is itself a number of the format.
-/

namespace Swatch.Binary64

/-! ### Values -/

/-- The rational number that a finite number is.  The other numbers count as zero. -/
def value : Binary64 → ℚ
  | .finite negative units _ => (signed negative units : ℚ) / unitsPerOne
  | _ => 0

@[simp] lemma signed_false (n : Nat) : signed false n = n := rfl

@[simp] lemma signed_true (n : Nat) : signed true n = -n := rfl

lemma signed_cast (negative : Bool) (n : Nat) :
    (signed negative n : ℚ) = if negative then -(n : ℚ) else n := by
  cases negative <;> simp [signed]

/-- A sign does not change the size of a number. -/
lemma abs_signed (negative : Bool) (n : Nat) : |(signed negative n : ℚ)| = n := by
  cases negative <;> simp [signed]

/-- The value of a number is a number of the format. -/
lemma representable_value (x : Binary64) : Representable x.value := by
  cases x with
  | finite negative units hgrid =>
      refine ⟨units, hgrid, ?_⟩
      rw [value, abs_div, abs_signed, abs_of_pos unitsPerOne_cast_pos]
  | nan | infinity negative =>
      exact ⟨0, ⟨unitsBound_pos, Nat.dvd_zero _⟩, by simp [value]⟩

/-- A finite number is a sign and a number of units. -/
lemma exists_finite {x : Binary64} (hx : x.isFinite = true) :
    ∃ negative units hgrid, x = .finite negative units hgrid := by
  cases x with
  | finite negative units hgrid => exact ⟨negative, units, hgrid, rfl⟩
  | nan | infinity => exact absurd hx (by simp [isFinite])

@[simp] lemma isFinite_zero (negative : Bool) : (zero negative).isFinite = true := rfl

@[simp] lemma value_zero (negative : Bool) : (zero negative).value = 0 := by
  cases negative <;> simp [zero, value, signed]

@[simp] lemma isFinite_neg (x : Binary64) : (-x).isFinite = x.isFinite := by
  cases x <;> rfl

/-- Negation turns the value around, that of a zero too. -/
@[simp] lemma value_neg (x : Binary64) : (-x).value = -x.value := by
  cases x with
  | finite negative units hgrid =>
      change (signed (!negative) units : ℚ) / unitsPerOne = -((signed negative units : ℚ) / _)
      cases negative <;> simp [signed] <;> ring
  | nan => exact neg_zero.symm
  | infinity => exact neg_zero.symm

@[simp] lemma isFinite_abs (x : Binary64) : x.abs.isFinite = x.isFinite := by
  cases x <;> rfl

/-- The value of the number without its sign. -/
@[simp] lemma value_abs (x : Binary64) : x.abs.value = |x.value| := by
  cases x with
  | finite negative units hgrid =>
      rw [abs, value, value, abs_div, abs_signed, abs_of_pos unitsPerOne_cast_pos]
      simp [signed]
  | nan | infinity => exact abs_zero.symm

/-- A number with a positive value carries no sign. -/
lemma exists_of_value_pos {x : Binary64} (h : 0 < x.value) :
    ∃ units hgrid, x = .finite false units hgrid := by
  cases x with
  | finite negative units hgrid =>
      cases negative with
      | false => exact ⟨units, hgrid, rfl⟩
      | true =>
          have hU := unitsPerOne_cast_pos
          have hle : value (.finite true units hgrid) ≤ 0 := by
            rw [value, signed_cast, if_pos rfl, neg_div]
            exact neg_nonpos.mpr (by positivity)
          exact absurd h (not_lt.mpr hle)
  | nan | infinity => exact absurd h (lt_irrefl 0)

/-- Numbers with the same positive value are the same. -/
lemma eq_of_value_pos {x y : Binary64} (hx : 0 < x.value) (h : x.value = y.value) : x = y := by
  obtain ⟨u, hu, rfl⟩ := exists_of_value_pos hx
  obtain ⟨v, hv, rfl⟩ := exists_of_value_pos (h ▸ hx)
  rw [value, value, div_left_inj' unitsPerOne_cast_pos.ne'] at h
  have hsigned : signed false u = signed false v := by exact_mod_cast h
  obtain rfl : u = v := Int.ofNat_inj.mp hsigned
  rfl

/-! ### Rounded numbers -/

/-- A number is what a rational number is rounded to: the nearest one, if that is not too large. -/
structure IsRounded (q : ℚ) (x : Binary64) : Prop where
  isFinite_iff : x.isFinite = true ↔ |nearest q| < unitsBound / unitsPerOne
  value_eq : x.isFinite = true → x.value = nearest q

/-- A finite number lies between two bounds. -/
structure Between (lo hi : ℚ) (x : Binary64) : Prop where
  isFinite : x.isFinite = true
  le_value : lo ≤ x.value
  value_le : x.value ≤ hi

/-- The bounds may be taken wider. -/
lemma Between.mono {lo hi lo' hi' : ℚ} {x : Binary64} (h : Between lo hi x) (hlo : lo' ≤ lo)
    (hhi : hi ≤ hi') : Between lo' hi' x :=
  ⟨h.isFinite, hlo.trans h.le_value, h.value_le.trans hhi⟩

namespace IsRounded

variable {q : ℚ} {x : Binary64}

/-- Rounding does not pass a bound that is itself a number of the format. -/
theorem between {lo hi : ℚ} (h : IsRounded q x) (hlo : Representable lo) (hhi : Representable hi)
    (hloq : lo ≤ q) (hqhi : q ≤ hi) : Between lo hi x := by
  have h1 : lo ≤ nearest q := by
    rw [← nearest_of_representable hlo]
    exact nearest_mono hloq
  have h2 : nearest q ≤ hi := by
    rw [← nearest_of_representable hhi]
    exact nearest_mono hqhi
  have hfinite : x.isFinite = true := by
    rw [h.isFinite_iff, abs_lt]
    have hl := (abs_lt.mp hlo.abs_lt).1
    have hr := (abs_lt.mp hhi.abs_lt).2
    exact ⟨by linarith, by linarith⟩
  rw [← h.value_eq hfinite] at h1 h2
  exact ⟨hfinite, h1, h2⟩

/-- A number of the format is rounded to itself. -/
lemma exact (h : IsRounded q x) (hq : Representable q) : x.isFinite = true ∧ x.value = q := by
  have hbetween := h.between hq hq le_rfl le_rfl
  exact ⟨hbetween.isFinite, le_antisymm hbetween.value_le hbetween.le_value⟩

/-- What is rounded from a number that is not negative is not negative. -/
lemma value_nonneg (h : IsRounded q x) (hq : 0 ≤ q) : 0 ≤ x.value := by
  by_cases hx : x.isFinite = true
  · rw [h.value_eq hx]
    exact nearest_nonneg hq
  · cases x with
    | finite => exact absurd rfl hx
    | nan | infinity => exact le_rfl

end IsRounded

/-! ### The operations -/

/-- Rounding a quotient of units is rounding the number that it is. -/
theorem isRounded_round (negative : Bool) (num : Nat) {den : Nat} (hd : 0 < den) :
    IsRounded ((signed negative num : ℚ) / den / unitsPerOne) (round negative num den) := by
  have hU := unitsPerOne_cast_pos
  have hd' : (0 : ℚ) < den := Nat.cast_pos.mpr hd
  have habs : |(signed negative num : ℚ) / den / unitsPerOne| = (num : ℚ) / den / unitsPerOne := by
    rw [abs_div, abs_div, abs_signed, abs_of_pos hd', abs_of_pos hU]
  have hmagnitude := nearestMagnitude_eq hd habs
  have hlt : |nearest ((signed negative num : ℚ) / den / unitsPerOne)| < unitsBound / unitsPerOne
      ↔ roundUnits num den < unitsBound := by
    rw [abs_nearest, hmagnitude, div_lt_div_iff_of_pos_right hU, Nat.cast_lt]
  have hvalue : nearest ((signed negative num : ℚ) / den / unitsPerOne)
      = (signed negative (roundUnits num den) : ℚ) / unitsPerOne := by
    have hnum : nearest ((num : ℚ) / den / unitsPerOne)
        = (roundUnits num den : ℚ) / unitsPerOne := by
      rw [nearest_of_nonneg (by positivity)]
      exact nearestMagnitude_eq hd (abs_of_nonneg (by positivity))
    rw [signed_cast, signed_cast]
    cases negative with
    | false => exact hnum
    | true => rw [if_pos rfl, if_pos rfl, neg_div, neg_div, nearest_neg, hnum, neg_div]
  by_cases h : roundUnits num den < unitsBound
  · rw [round, dif_pos h]
    exact ⟨iff_of_true rfl (hlt.mpr h), fun _ => hvalue.symm⟩
  · rw [round, dif_neg h]
    refine ⟨iff_of_false (by simp [isFinite]) (mt hlt.mp h), fun hf => ?_⟩
    exact absurd hf (by simp [isFinite])

/-- An integer is its size under its sign. -/
lemma signed_natAbs (n : ℤ) : signed (decide (n < 0)) n.natAbs = n := by
  rw [signed]
  split_ifs with h <;> rw [decide_eq_true_eq] at h <;> omega

/-- An integer is rounded as the rational number that it is. -/
lemma isRounded_ofInt (n : ℤ) : IsRounded n (ofInt n) := by
  have h := isRounded_round (decide (n < 0)) (n.natAbs * unitsPerOne) Nat.one_pos
  have hq : (signed (decide (n < 0)) (n.natAbs * unitsPerOne) : ℚ) / (1 : Nat) / unitsPerOne
      = n := by
    have hU := unitsPerOne_cast_pos.ne'
    have hn : ((signed (decide (n < 0)) n.natAbs : ℤ) : ℚ) = n := by rw [signed_natAbs]
    rw [signed_cast] at hn ⊢
    push_cast at hn ⊢
    rw [← hn]
    split_ifs <;> field_simp
  rwa [hq] at h

/-- The decimal `m / 10 ^ e`, as it is written in the definitions. -/
lemma isRounded_ofScientific (m e : Nat) :
    IsRounded ((m : ℚ) / 10 ^ e) (OfScientific.ofScientific m true e) := by
  have h := isRounded_round false (m * unitsPerOne) (Nat.pow_pos (n := e) (by norm_num : 0 < 10))
  have hq : (signed false (m * unitsPerOne) : ℚ) / (10 ^ e : Nat) / unitsPerOne
      = (m : ℚ) / 10 ^ e := by
    have hU := unitsPerOne_cast_pos.ne'
    rw [signed_cast]
    push_cast
    field_simp
  rw [hq] at h
  have hscaled : (OfScientific.ofScientific m true e : Binary64)
      = round false (m * unitsPerOne) (10 ^ e) := by
    change round false (m * 10 ^ (-(e : ℤ)).toNat * unitsPerOne) (10 ^ (-(-(e : ℤ))).toNat) = _
    have h1 : (-(e : ℤ)).toNat = 0 := by omega
    have h2 : (-(-(e : ℤ))).toNat = e := by omega
    rw [h1, h2, Nat.pow_zero, Nat.mul_one]
  rw [hscaled]
  exact h

/-- A zero of either sign. -/
lemma isRounded_zero (negative : Bool) : IsRounded 0 (zero negative) := by
  refine ⟨iff_of_true rfl ?_, fun _ => by simp⟩
  have hU := unitsPerOne_cast_pos
  have hbound : (0 : ℚ) < unitsBound := Nat.cast_pos.mpr unitsBound_pos
  simpa using div_pos hbound hU

section Operations

variable {x y : Binary64}

/-- A sum is the exact sum rounded once. -/
theorem isRounded_add (hx : x.isFinite = true) (hy : y.isFinite = true) :
    IsRounded (x.value + y.value) (x + y) := by
  obtain ⟨s, u, hu, rfl⟩ := exists_finite hx
  obtain ⟨t, v, hv, rfl⟩ := exists_finite hy
  have hsum : value (.finite s u hu) + value (.finite t v hv)
      = ((signed s u + signed t v : ℤ) : ℚ) / unitsPerOne := by
    rw [value, value]
    push_cast
    ring
  rw [hsum]
  change IsRounded _ (if signed s u + signed t v = 0 then zero (s && t)
    else round (signed s u + signed t v < 0) (signed s u + signed t v).natAbs 1)
  split_ifs with h
  · rw [h, Int.cast_zero, zero_div]
    exact isRounded_zero _
  · have hround := isRounded_round (decide (signed s u + signed t v < 0))
      (signed s u + signed t v).natAbs Nat.one_pos
    rwa [signed_natAbs, Nat.cast_one, div_one] at hround

/-- A difference is the exact difference rounded once. -/
theorem isRounded_sub (hx : x.isFinite = true) (hy : y.isFinite = true) :
    IsRounded (x.value - y.value) (x - y) := by
  have h := isRounded_add hx (y := -y) (by rwa [isFinite_neg])
  rwa [value_neg, ← sub_eq_add_neg] at h

/-- The factors of a product may change places. -/
protected lemma mul_comm (x y : Binary64) : x * y = y * x := by
  change mul x y = mul y x
  cases x with
  | nan => cases y <;> rfl
  | infinity s =>
      cases y with
      | nan => rfl
      | infinity t => rw [mul, mul, bne_comm]
      | finite t v _ => rw [mul, mul, bne_comm]
  | finite s u _ =>
      cases y with
      | nan => rfl
      | infinity t => rw [mul, mul, bne_comm]
      | finite t v _ => rw [mul, mul, bne_comm, Nat.mul_comm]

/-- The signs of two factors are combined as in a product. -/
lemma signed_bne (s t : Bool) (u v : Nat) :
    ((signed (s != t) (u * v) : ℤ) : ℚ) = (signed s u : ℚ) * (signed t v : ℚ) := by
  cases s <;> cases t <;> simp [signed]

/-- A product is the exact product rounded once. -/
theorem isRounded_mul (hx : x.isFinite = true) (hy : y.isFinite = true) :
    IsRounded (x.value * y.value) (x * y) := by
  obtain ⟨s, u, hu, rfl⟩ := exists_finite hx
  obtain ⟨t, v, hv, rfl⟩ := exists_finite hy
  have h := isRounded_round (s != t) (u * v) unitsPerOne_pos
  have hq : value (.finite s u hu) * value (.finite t v hv)
      = ((signed (s != t) (u * v) : ℤ) : ℚ) / unitsPerOne / unitsPerOne := by
    have hU := unitsPerOne_cast_pos.ne'
    rw [value, value, signed_bne]
    field_simp
  rwa [← hq] at h

/-- A quotient is the exact quotient rounded once, if the divisor is not zero. -/
theorem isRounded_div (hx : x.isFinite = true) (hy : y.isFinite = true) (hne : y.value ≠ 0) :
    IsRounded (x.value / y.value) (x / y) := by
  obtain ⟨s, u, hu, rfl⟩ := exists_finite hx
  obtain ⟨t, v, hv, rfl⟩ := exists_finite hy
  have hv0 : v ≠ 0 := by
    rintro rfl
    exact hne (by simp [value, signed])
  have h := isRounded_round (s != t) (u * unitsPerOne) (Nat.pos_of_ne_zero hv0)
  have hq : value (.finite s u hu) / value (.finite t v hv)
      = ((signed (s != t) (u * unitsPerOne) : ℤ) : ℚ) / v / unitsPerOne := by
    have hU := unitsPerOne_cast_pos.ne'
    have hvq : (v : ℚ) ≠ 0 := Nat.cast_ne_zero.mpr hv0
    rw [value, value, signed_cast, signed_cast, signed_cast]
    cases s <;> cases t <;> simp <;> field_simp
  rw [← hq] at h
  change IsRounded _ (if v = 0 then (if u = 0 then .nan else .infinity (s != t))
    else round (s != t) (u * unitsPerOne) v)
  rwa [if_neg hv0]

end Operations

/-! ### Comparisons -/

section Comparisons

variable {x y : Binary64}

/-- The place of a finite number in the order is its value in units. -/
lemma place_eq (hx : x.isFinite = true) :
    ∃ n : ℤ, x.place = some n ∧ x.value = (n : ℚ) / unitsPerOne := by
  obtain ⟨s, u, hu, rfl⟩ := exists_finite hx
  exact ⟨signed s u, by cases s <;> simp [place, signed], rfl⟩

/-- Finite numbers are compared by their values. -/
theorem lt_iff (hx : x.isFinite = true) (hy : y.isFinite = true) : x < y ↔ x.value < y.value := by
  obtain ⟨m, hm, hvm⟩ := place_eq hx
  obtain ⟨n, hn, hvn⟩ := place_eq hy
  rw [hvm, hvn, div_lt_div_iff_of_pos_right unitsPerOne_cast_pos, Int.cast_lt]
  change related (· < ·) x y = true ↔ _
  simp [related, hm, hn]

theorem le_iff (hx : x.isFinite = true) (hy : y.isFinite = true) : x ≤ y ↔ x.value ≤ y.value := by
  obtain ⟨m, hm, hvm⟩ := place_eq hx
  obtain ⟨n, hn, hvn⟩ := place_eq hy
  rw [hvm, hvn, div_le_div_iff_of_pos_right unitsPerOne_cast_pos, Int.cast_le]
  change related (· ≤ ·) x y = true ↔ _
  simp [related, hm, hn]

theorem beq_iff (hx : x.isFinite = true) (hy : y.isFinite = true) :
    (x == y) = true ↔ x.value = y.value := by
  obtain ⟨m, hm, hvm⟩ := place_eq hx
  obtain ⟨n, hn, hvn⟩ := place_eq hy
  have hU := unitsPerOne_cast_pos.ne'
  rw [hvm, hvn, div_left_inj' hU, Int.cast_inj]
  change related (· == ·) x y = true ↔ _
  simp [related, hm, hn]

/-- The place of a finite number lies between those of the infinities. -/
lemma exists_place (hx : x.isFinite = true) :
    ∃ n : ℤ, x.place = some n ∧ -unitsBound < n ∧ n < unitsBound := by
  obtain ⟨s, u, hu, rfl⟩ := exists_finite hx
  have hbound : u < unitsBound := hu.1
  cases s with
  | false => exact ⟨u, rfl, by omega, by omega⟩
  | true => exact ⟨-u, rfl, by omega, by omega⟩

/-- A finite number lies above one infinity and below the other. -/
lemma infinity_lt (hx : x.isFinite = true) : .infinity true < x := by
  obtain ⟨n, hn, hlow, -⟩ := exists_place hx
  have hinfinity : (infinity true).place = some (-(unitsBound : ℤ)) := rfl
  change related (· < ·) _ x = true
  simp [related, hinfinity, hn, hlow]

lemma le_infinity (hx : x.isFinite = true) : x ≤ .infinity false := by
  obtain ⟨n, hn, -, hhigh⟩ := exists_place hx
  have hinfinity : (infinity false).place = some (unitsBound : ℤ) := rfl
  change related (· ≤ ·) x _ = true
  simp [related, hinfinity, hn, hhigh.le]

/-- A number that is at least another one is not below it. -/
lemma not_lt_of_le (h : y ≤ x) : ¬ x < y := by
  change related (· ≤ ·) y x = true at h
  change ¬ related (· < ·) x y = true
  rw [related] at h ⊢
  split at h
  · next hy hx => simpa [hx, hy] using h
  · exact absurd h (by simp)

/-- The larger of two finite numbers is one of them. -/
lemma isFinite_max (hx : x.isFinite = true) (hy : y.isFinite = true) :
    (x.max y).isFinite = true := by
  rw [max]
  split_ifs
  · exact hy
  · exact hx

lemma isFinite_min (hx : x.isFinite = true) (hy : y.isFinite = true) :
    (x.min y).isFinite = true := by
  rw [min]
  split_ifs
  · exact hy
  · exact hx

/-- The larger of two finite numbers is the one with the larger value. -/
lemma value_max (hx : x.isFinite = true) (hy : y.isFinite = true) :
    (x.max y).value = Max.max x.value y.value := by
  rw [max]
  split_ifs with h
  · exact (max_eq_right ((lt_iff hx hy).mp h).le).symm
  · exact (max_eq_left (not_lt.mp (mt (lt_iff hx hy).mpr h))).symm

lemma value_min (hx : x.isFinite = true) (hy : y.isFinite = true) :
    (x.min y).value = Min.min x.value y.value := by
  rw [min]
  split_ifs with h
  · exact (min_eq_right ((lt_iff hy hx).mp h).le).symm
  · exact (min_eq_left (not_lt.mp (mt (lt_iff hy hx).mpr h))).symm

end Comparisons

end Swatch.Binary64
