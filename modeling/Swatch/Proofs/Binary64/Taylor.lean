import Swatch.Proofs.Binary64.Euler
/-!
The sine and the cosine of a number, as their power series give them.

The angle is reduced by whole quarter turns, in enough bits for the largest number, so that what is
left is accurate for every finite number; forty terms of a power series leave out less than the last
bit of what is summed.

* `Taylor.abs_cos_sub_le`, `Taylor.abs_sin_sub_le`: the sums and the functions.
* `abs_alternatingTerms_sub_le`: the sum in fixed point and the exact one.
* `Binary64.exists_quadrant`: an angle is so many quarter turns and an angle within a quadrant.
* `Binary64.abs_cos_sub_le`, `Binary64.abs_sin_sub_le`: the cosine and the sine of a finite number.
-/

namespace Swatch

open Finset

/-! ### The power series of the cosine and the sine -/

namespace Taylor

/-- The terms of the exponential of an imaginary number are in turn those of the cosine and those
of the sine. -/
lemma sum_exp (x : ℝ) (n : Nat) :
    ∑ m ∈ range (2 * n), (x * Complex.I) ^ m / (m.factorial : ℂ)
      = (∑ i ∈ range n, (-1) ^ i * x ^ (2 * i) / ((2 * i).factorial : ℝ) : ℝ)
        + (∑ i ∈ range n, (-1) ^ i * x ^ (2 * i + 1) / ((2 * i + 1).factorial : ℝ) : ℝ)
          * Complex.I := by
  induction n with
  | zero => simp
  | succ n ih =>
      have heven : (x * Complex.I) ^ (2 * n) = (-1) ^ n * x ^ (2 * n) := by
        rw [mul_pow, pow_mul Complex.I, Complex.I_sq]
        ring
      rw [Nat.mul_succ, sum_range_succ, sum_range_succ, ih, sum_range_succ, sum_range_succ,
        pow_succ (_ * Complex.I), heven]
      push_cast
      ring

/-- What the sums lack of the cosine and the sine. -/
lemma norm_exp_sub_le {x : ℝ} {n : Nat} (h : |x| / (2 * n + 1) ≤ 1 / 2) :
    ‖Complex.exp (x * Complex.I) - ∑ m ∈ range (2 * n), (x * Complex.I) ^ m / (m.factorial : ℂ)‖
      ≤ |x| ^ (2 * n) / (2 * n).factorial * 2 := by
  have hnorm : ‖(x * Complex.I : ℂ)‖ = |x| := by simp
  have hbound := Complex.exp_bound' (x := x * Complex.I) (n := 2 * n)
    (by rw [hnorm]; push_cast; exact h)
  rwa [hnorm] at hbound

lemma abs_cos_sub_le {x : ℝ} {n : Nat} (h : |x| / (2 * n + 1) ≤ 1 / 2) :
    |Real.cos x - ∑ i ∈ range n, (-1) ^ i * x ^ (2 * i) / ((2 * i).factorial : ℝ)|
      ≤ |x| ^ (2 * n) / (2 * n).factorial * 2 := by
  refine le_trans (le_of_eq_of_le ?_ (Complex.abs_re_le_norm _)) (norm_exp_sub_le h)
  rw [sum_exp, Complex.sub_re, Complex.exp_ofReal_mul_I_re, Complex.add_re, Complex.ofReal_re,
    Complex.re_ofReal_mul, Complex.I_re, mul_zero, add_zero]

lemma abs_sin_sub_le {x : ℝ} {n : Nat} (h : |x| / (2 * n + 1) ≤ 1 / 2) :
    |Real.sin x - ∑ i ∈ range n, (-1) ^ i * x ^ (2 * i + 1) / ((2 * i + 1).factorial : ℝ)|
      ≤ |x| ^ (2 * n) / (2 * n).factorial * 2 := by
  refine le_trans (le_of_eq_of_le ?_ (Complex.abs_im_le_norm _)) (norm_exp_sub_le h)
  rw [sum_exp, Complex.sub_im, Complex.exp_ofReal_mul_I_im, Complex.add_im, Complex.ofReal_im,
    Complex.im_ofReal_mul, Complex.I_im, mul_one, zero_add]

/-- An alternating series relative to its first term, as it is summed: each next term is divided by
the next two factors of a factorial. -/
noncomputable def alternating (y : ℝ) : (steps k : Nat) → ℝ
  | 0, _ => 0
  | steps + 1, k => 1 - y / ((k + 1) * (k + 2) : Nat) * alternating y steps (k + 2)

lemma alternating_eq (y : ℝ) (steps k : Nat) : alternating y steps k / k.factorial
    = ∑ i ∈ range steps, (-1) ^ i * y ^ i / ((2 * i + k).factorial : ℝ) := by
  induction steps generalizing k with
  | zero => simp [alternating]
  | succ steps ih =>
      have hfactorial : ((k + 2).factorial : ℝ) = (k + 1) * (k + 2) * k.factorial := by
        rw [Nat.factorial_succ, Nat.factorial_succ]
        push_cast
        ring
      have hne : (k.factorial : ℝ) ≠ 0 := Nat.cast_ne_zero.mpr k.factorial_ne_zero
      have hstep : alternating y (steps + 1) k / k.factorial
          = 1 / k.factorial - y * (alternating y steps (k + 2) / (k + 2).factorial) := by
        rw [alternating, hfactorial]
        push_cast
        field_simp
      rw [hstep, ih, sum_range_succ', mul_sum, sub_eq_add_neg, add_comm, ← sum_neg_distrib]
      congr 1
      · refine sum_congr rfl fun i _ => ?_
        rw [show 2 * (i + 1) + k = 2 * i + (k + 2) by ring]
        ring
      · simp

end Taylor

/-! ### The series in fixed point -/

/-- What the series leave out is less than their last bit. -/
lemma leftOut_le : 2 ^ seriesBits * (2 ^ (80 : Nat) * 2) ≤ Nat.factorial 80 := by
  rw [seriesBits_eq]
  decide +kernel

/-- The bits before the point that a number can have. -/
def wholeBits : Nat := 1024

/-- An angle is reduced in enough bits for the largest number. -/
lemma reduction_le : wholeBits + 40 + seriesBits ≤ reductionBits := by
  rw [seriesBits_eq, reductionBits_eq]
  decide

lemma unitsBound_eq_mul : unitsBound = 2 ^ unitBits * 2 ^ wholeBits := by
  rw [unitsBound_eq, ← Nat.pow_add, wholeBits]

lemma unitBits_le : unitBits ≤ reductionBits := by
  rw [unitBits_eq, reductionBits_eq]
  decide

attribute [irreducible] wholeBits

/-- The next term in fixed point is near the exact one if the one before is. -/
lemma abs_nextAlternatingTerm_sub_le {square term : Nat} {y exact : ℝ} (hy : 0 ≤ y ∧ y ≤ 4)
    (hsquare : |square / 2 ^ seriesBits - y| ≤ 1 / 2 ^ seriesBits) (k : Nat)
    (hexact : 0 ≤ exact ∧ exact ≤ (k + 1) * 2 ^ seriesBits) (hterm : |term - exact| ≤ 5 * k) :
    |((term * square / 2 ^ seriesBits / ((k + 1) * (k + 2)) : Nat) : ℝ)
      - exact * (y / ((k + 1) * (k + 2)))| ≤ 5 * (k + 2 : Nat) := by
  have hS : (1 : ℝ) ≤ 2 ^ seriesBits := one_le_pow₀ one_le_two
  have hD : (0 : ℝ) < (k + 1) * (k + 2) := by positivity
  set product := term * square / 2 ^ seriesBits with hproduct
  have hcut := abs_div_sub_le (term * square) (Nat.two_pow_pos seriesBits)
  have hcut' := abs_div_sub_le product (b := (k + 1) * (k + 2)) (by positivity)
  rw [← hproduct] at hcut
  push_cast at hcut hcut' ⊢
  -- the error of the term counts as often as the square is large, that of the square as the term
  have hfactors : |(term : ℝ) * square / 2 ^ seriesBits - exact * y| ≤ 25 * k + (k + 1) := by
    have hsquare' : |(square : ℝ) / 2 ^ seriesBits| ≤ 5 := by
      have hone : 1 / (2 : ℝ) ^ seriesBits ≤ 1 := (div_le_one (by positivity)).mpr hS
      obtain ⟨-, hhigh⟩ := abs_le.mp hsquare
      rw [abs_of_nonneg (by positivity)]
      linarith [hy.2]
    have hsplit : (term : ℝ) * square / 2 ^ seriesBits - exact * y
        = (term - exact) * (square / 2 ^ seriesBits)
          + exact * (square / 2 ^ seriesBits - y) := by ring
    rw [hsplit]
    refine (abs_add_le _ _).trans (add_le_add ?_ ?_)
    · rw [abs_mul]
      calc _ ≤ (5 * k : ℝ) * 5 := mul_le_mul hterm hsquare' (abs_nonneg _) (by positivity)
        _ = 25 * k := by ring
    · rw [abs_mul, abs_of_nonneg hexact.1]
      calc exact * |(square : ℝ) / 2 ^ seriesBits - y|
          ≤ (k + 1) * 2 ^ seriesBits * (1 / 2 ^ seriesBits) :=
            mul_le_mul hexact.2 hsquare (abs_nonneg _) (by positivity)
        _ = (k + 1 : ℝ) := by field_simp
  have hproduct' : |(product : ℝ) / ((k + 1) * (k + 2)) - exact * (y / ((k + 1) * (k + 2)))|
      ≤ (26 * k + 2) / ((k + 1) * (k + 2)) := by
    have hsplit : (product : ℝ) / ((k + 1) * (k + 2)) - exact * (y / ((k + 1) * (k + 2)))
        = (product - exact * y) / ((k + 1) * (k + 2)) := by ring
    rw [hsplit, abs_div, abs_of_pos hD]
    refine div_le_div_of_nonneg_right ?_ hD.le
    linarith [abs_sub_le (product : ℝ) (term * square / 2 ^ seriesBits) (exact * y)]
  have hsmall : (26 * k + 2) / ((k + 1) * (k + 2)) ≤ 5 * (k : ℝ) + 9 := by
    rw [div_le_iff₀ hD]
    nlinarith [Nat.cast_nonneg (α := ℝ) k, sq_nonneg (k : ℝ),
      pow_nonneg (Nat.cast_nonneg (α := ℝ) k) 3]
  linarith [abs_sub_le ((product / ((k + 1) * (k + 2)) : Nat) : ℝ)
    (product / ((k + 1) * (k + 2))) (exact * (y / ((k + 1) * (k + 2))))]

/-- The sum in fixed point is near the exact one if its first term is. -/
lemma abs_alternatingTerms_sub_le {square : Nat} {y : ℝ} (hy : 0 ≤ y ∧ y ≤ 4)
    (hsquare : |square / 2 ^ seriesBits - y| ≤ 1 / 2 ^ seriesBits) (steps k term : Nat) {exact : ℝ}
    (hexact : 0 ≤ exact ∧ exact ≤ (k + 1) * 2 ^ seriesBits) (hterm : |term - exact| ≤ 5 * k) :
    |(alternatingTerms square steps k term : ℝ) - exact * Taylor.alternating y steps k|
      ≤ 5 * steps * (k + 2 * steps) := by
  induction steps generalizing k term exact with
  | zero => simp [alternatingTerms, Taylor.alternating]
  | succ steps ih =>
      have hD : (0 : ℝ) < (k + 1) * (k + 2) := by positivity
      have hnext := abs_nextAlternatingTerm_sub_le hy hsquare k hexact hterm
      have hexact' : 0 ≤ exact * (y / ((k + 1) * (k + 2))) ∧
          exact * (y / ((k + 1) * (k + 2))) ≤ ((k + 2 : Nat) + 1) * 2 ^ seriesBits := by
        obtain ⟨h0, h1⟩ := hexact
        refine ⟨mul_nonneg h0 (div_nonneg hy.1 hD.le), ?_⟩
        have hfactor : y / ((k + 1) * (k + 2)) ≤ 4 / ((k + 1) * (k + 2)) :=
          div_le_div_of_nonneg_right hy.2 hD.le
        calc exact * (y / ((k + 1) * (k + 2)))
            ≤ (k + 1) * 2 ^ seriesBits * (4 / ((k + 1) * (k + 2))) :=
              mul_le_mul h1 hfactor (div_nonneg hy.1 hD.le) (by positivity)
          _ = 4 / (k + 2) * 2 ^ seriesBits := by field_simp
          _ ≤ ((k + 2 : Nat) + 1) * 2 ^ seriesBits := by
              refine mul_le_mul_of_nonneg_right ?_ (by positivity)
              rw [div_le_iff₀ (by positivity)]
              push_cast
              nlinarith [Nat.cast_nonneg (α := ℝ) k]
      have hrest := ih (k + 2) _ hexact' hnext
      rw [alternatingTerms, Nat.shiftRight_eq_div_pow, Taylor.alternating]
      push_cast at hrest ⊢
      set next : ℝ := ((alternatingTerms square steps (k + 2)
        (term * square / 2 ^ seriesBits / ((k + 1) * (k + 2))) : ℤ) : ℝ)
      have hsplit : (term : ℝ) - next - exact * (1 - y / ((k + 1) * (k + 2))
          * Taylor.alternating y steps (k + 2)) = (term - exact)
          - (next - exact * (y / ((k + 1) * (k + 2))) * Taylor.alternating y steps (k + 2)) := by
        ring
      rw [hsplit]
      refine (abs_sub _ _).trans ((add_le_add hterm hrest).trans ?_)
      nlinarith [Nat.cast_nonneg (α := ℝ) k, Nat.cast_nonneg (α := ℝ) steps]

/-- A sum in fixed point that is held within one is no farther from a sine or cosine that is not
below zero by more than the error. -/
lemma abs_withinOne_sub_le {n : ℤ} {v δ : ℝ} (h : |n - 2 ^ seriesBits * v| ≤ δ) (hv : v ≤ 1)
    (hnonneg : -δ ≤ 2 ^ seriesBits * v) : |(withinOne n : ℝ) - 2 ^ seriesBits * v| ≤ δ := by
  have hS : (0 : ℝ) < 2 ^ seriesBits := by positivity
  have hone : 2 ^ seriesBits * v ≤ 2 ^ seriesBits := mul_le_of_le_one_right hS.le hv
  obtain ⟨hlow, hhigh⟩ := abs_le.mp h
  have hcast : (withinOne n : ℝ) = min (max (n : ℝ) 0) (2 ^ seriesBits) := by
    have hnat : ((n.toNat : ℤ) : ℝ) = max (n : ℝ) 0 := by
      rw [Int.toNat_eq_max]
      push_cast
      rfl
    rw [withinOne, Nat.cast_min, ← hnat]
    push_cast
    rfl
  rw [hcast, abs_le]
  constructor
  · refine le_sub_iff_add_le.mpr (le_min (le_max_of_le_left ?_) ?_) <;> linarith
  · refine sub_le_iff_le_add.mpr (min_le_of_left_le (max_le ?_ ?_)) <;> linarith

/-- The square of an angle in fixed point is near the exact one. -/
lemma abs_square_sub_le (r : Nat) : |((r * r / 2 ^ seriesBits : Nat) : ℝ) / 2 ^ seriesBits
    - (r / 2 ^ seriesBits) ^ 2| ≤ 1 / 2 ^ seriesBits := by
  have hS : (0 : ℝ) < 2 ^ seriesBits := by positivity
  have hcut := abs_div_sub_le (r * r) (Nat.two_pow_pos seriesBits)
  have hsplit : ((r * r / 2 ^ seriesBits : Nat) : ℝ) / 2 ^ seriesBits - (r / 2 ^ seriesBits) ^ 2
      = (((r * r / 2 ^ seriesBits : Nat) : ℝ) - (r * r : Nat) / (2 ^ seriesBits : Nat))
        / 2 ^ seriesBits := by
    push_cast
    field_simp
  rw [hsplit, abs_div, abs_of_pos hS]
  exact div_le_div_of_nonneg_right hcut hS.le

section Series

variable {r : Nat}

/-- What forty terms leave out is less than the last bit. -/
lemma leftOut_cast_le (hr : r ≤ 2 * 2 ^ seriesBits) : (2 : ℝ) ^ seriesBits
    * (|(r : ℝ) / 2 ^ seriesBits| ^ (2 * 40) / (2 * 40 : Nat).factorial * 2) ≤ 1 := by
  have hS : (0 : ℝ) < 2 ^ seriesBits := by positivity
  have hangle : |(r : ℝ) / 2 ^ seriesBits| ≤ 2 := by
    rw [abs_of_nonneg (by positivity), div_le_iff₀ hS]
    exact_mod_cast hr
  have hfactorial : (0 : ℝ) < (2 * 40 : Nat).factorial := by positivity
  have hcast : (2 : ℝ) ^ seriesBits * (2 ^ 80 * 2) ≤ (2 * 40 : Nat).factorial := by
    exact_mod_cast leftOut_le
  calc _ ≤ (2 : ℝ) ^ seriesBits * (2 ^ (2 * 40) / (2 * 40 : Nat).factorial * 2) := by gcongr
    _ = (2 : ℝ) ^ seriesBits * (2 ^ 80 * 2) / (2 * 40 : Nat).factorial := by ring
    _ ≤ 1 := (div_le_one hfactorial).mpr hcast

lemma abs_div_le_half (hr : r ≤ 2 * 2 ^ seriesBits) :
    |(r : ℝ) / 2 ^ seriesBits| / (2 * (40 : Nat) + 1) ≤ 1 / 2 := by
  have hS : (0 : ℝ) < 2 ^ seriesBits := by positivity
  have hangle : (r : ℝ) / 2 ^ seriesBits ≤ 2 := by
    rw [div_le_iff₀ hS]
    exact_mod_cast hr
  rw [abs_of_nonneg (by positivity)]
  push_cast
  linarith

/-- A sum in fixed point and the function that the series is for. -/
lemma abs_terms_sub_le (hr : r ≤ 2 * 2 ^ seriesBits) {n : ℤ} {k : Nat} (hk : k ≤ 1) {sum v : ℝ}
    (hterms : |n - 2 ^ seriesBits * sum| ≤ 5 * (40 : Nat) * (k + 2 * (40 : Nat)))
    (hseries : |v - sum| ≤ |(r : ℝ) / 2 ^ seriesBits| ^ (2 * 40) / (2 * 40 : Nat).factorial * 2) :
    |n - 2 ^ seriesBits * v| ≤ 2 ^ 15 := by
  have hS : (0 : ℝ) < 2 ^ seriesBits := by positivity
  have hkr : (k : ℝ) ≤ 1 := by exact_mod_cast hk
  have hscaled : |2 ^ seriesBits * sum - 2 ^ seriesBits * v| ≤ 1 := by
    rw [← mul_sub, abs_mul, abs_of_pos hS, abs_sub_comm]
    exact (mul_le_mul_of_nonneg_left hseries hS.le).trans (leftOut_cast_le hr)
  refine (abs_sub_le _ _ _).trans ((add_le_add hterms hscaled).trans ?_)
  push_cast
  linarith

lemma square_mem (hr : r ≤ 2 * 2 ^ seriesBits) :
    0 ≤ ((r : ℝ) / 2 ^ seriesBits) ^ 2 ∧ ((r : ℝ) / 2 ^ seriesBits) ^ 2 ≤ 4 := by
  have hS : (0 : ℝ) < 2 ^ seriesBits := by positivity
  have hnonneg : 0 ≤ (r : ℝ) / 2 ^ seriesBits := by positivity
  have hangle : (r : ℝ) / 2 ^ seriesBits ≤ 2 := by
    rw [div_le_iff₀ hS]
    exact_mod_cast hr
  exact ⟨by positivity, by nlinarith⟩

/-- The sine of an angle in fixed point. -/
lemma abs_sineSeries_sub_le (hr : r ≤ 2 * 2 ^ seriesBits)
    (hnonneg : -2 ^ 15 ≤ 2 ^ seriesBits * Real.sin (r / 2 ^ seriesBits)) :
    |(sineSeries r : ℝ) - 2 ^ seriesBits * Real.sin (r / 2 ^ seriesBits)| ≤ 2 ^ 15 := by
  have hexact : 0 ≤ (r : ℝ) ∧ (r : ℝ) ≤ ((1 : Nat) + 1) * 2 ^ seriesBits := by
    refine ⟨by positivity, ?_⟩
    rw [Nat.cast_one, one_add_one_eq_two]
    exact_mod_cast hr
  have hterms := abs_alternatingTerms_sub_le (square_mem hr) (abs_square_sub_le r) 40 1 r hexact
    (by simp)
  have hsum : (r : ℝ) * Taylor.alternating ((r / 2 ^ seriesBits) ^ 2) 40 1 = 2 ^ seriesBits
      * ∑ i ∈ range 40, (-1) ^ i * ((r : ℝ) / 2 ^ seriesBits) ^ (2 * i + 1)
        / ((2 * i + 1).factorial : ℝ) := by
    have heq := Taylor.alternating_eq (((r : ℝ) / 2 ^ seriesBits) ^ 2) 40 1
    rw [Nat.factorial_one, Nat.cast_one, div_one] at heq
    rw [heq, mul_sum, mul_sum]
    refine sum_congr rfl fun i _ => ?_
    rw [← pow_mul, pow_succ]
    field_simp
  rw [hsum] at hterms
  rw [sineSeries, Nat.shiftRight_eq_div_pow]
  refine abs_withinOne_sub_le ?_ (Real.sin_le_one _) hnonneg
  exact abs_terms_sub_le hr le_rfl hterms (Taylor.abs_sin_sub_le (abs_div_le_half hr))

/-- The cosine of an angle in fixed point. -/
lemma abs_cosineSeries_sub_le (hr : r ≤ 2 * 2 ^ seriesBits)
    (hnonneg : -2 ^ 15 ≤ 2 ^ seriesBits * Real.cos (r / 2 ^ seriesBits)) :
    |(cosineSeries r : ℝ) - 2 ^ seriesBits * Real.cos (r / 2 ^ seriesBits)| ≤ 2 ^ 15 := by
  have hexact : 0 ≤ (2 : ℝ) ^ seriesBits ∧
      (2 : ℝ) ^ seriesBits ≤ ((0 : Nat) + 1) * 2 ^ seriesBits := by
    rw [Nat.cast_zero, zero_add, one_mul]
    exact ⟨by positivity, le_rfl⟩
  have hterms := abs_alternatingTerms_sub_le (square_mem hr) (abs_square_sub_le r) 40 0
    (2 ^ seriesBits) hexact (by push_cast; simp)
  have hsum := Taylor.alternating_eq (((r : ℝ) / 2 ^ seriesBits) ^ 2) 40 0
  simp only [Nat.factorial_zero, Nat.cast_one, div_one, Nat.add_zero, ← pow_mul] at hsum
  rw [hsum] at hterms
  rw [cosineSeries, Nat.shiftRight_eq_div_pow]
  refine abs_withinOne_sub_le ?_ (Real.cos_le_one _) hnonneg
  exact abs_terms_sub_le hr zero_le_one hterms (Taylor.abs_cos_sub_le (abs_div_le_half hr))

end Series

/-! ### The reduction of the angle -/

/-- A quarter turn is more than one. -/
lemma two_pow_le_quarterTurn : 2 ^ reductionBits ≤ quarterTurn := by
  have hbits : (2 : ℝ) ^ 4 ≤ 2 ^ reductionBits := by
    refine pow_le_pow_right₀ one_le_two ?_
    have := reduction_le
    omega
  have hpi := Real.pi_gt_three
  have hclose := (abs_le.mp abs_quarterTurn_sub_le).1
  have hreal : (2 : ℝ) ^ reductionBits ≤ quarterTurn := by nlinarith
  exact_mod_cast hreal

namespace Binary64

section Quadrant

variable {units : Nat}

/-- The number of whole quarter turns in an angle is that of a number of at most 1024 bits. -/
lemma quarterTurns_lt (h : units < unitsBound) :
    units <<< (reductionBits - unitBits) / quarterTurn < 2 ^ wholeBits := by
  refine lt_of_le_of_lt (Nat.div_le_div_left two_pow_le_quarterTurn (Nat.two_pow_pos _)) ?_
  rw [Nat.div_lt_iff_lt_mul (Nat.two_pow_pos _), Nat.shiftLeft_eq]
  calc units * 2 ^ (reductionBits - unitBits)
      < 2 ^ unitBits * 2 ^ wholeBits * 2 ^ (reductionBits - unitBits) := by
        rw [← unitsBound_eq_mul]
        exact Nat.mul_lt_mul_of_pos_right h (Nat.two_pow_pos _)
    _ = 2 ^ wholeBits * (2 ^ unitBits * 2 ^ (reductionBits - unitBits)) := by
        rw [Nat.mul_comm (2 ^ unitBits), Nat.mul_assoc]
    _ = 2 ^ wholeBits * 2 ^ reductionBits := by
        rw [← Nat.pow_add, Nat.add_sub_cancel' unitBits_le]

lemma quadrant_snd_le (units : Nat) : (quadrant units).2 ≤ 2 * 2 ^ seriesBits := by
  have hQ : 0 < quarterTurn := (Nat.two_pow_pos _).trans_le two_pow_le_quarterTurn
  refine le_trans ?_ quarterTurn_shift_le
  rw [Nat.shiftRight_eq_div_pow]
  refine le_trans (le_of_eq ?_) (Nat.div_le_div_right (c := 2 ^ (reductionBits - seriesBits))
    (Nat.mod_lt (units <<< (reductionBits - unitBits)) hQ).le)
  rw [← Nat.shiftRight_eq_div_pow]
  rfl

/-- A bit of the reduction, as often as there are quarter turns, is less than a bit of the
series. -/
lemma two_pow_div_le : 2 ^ wholeBits * (2 / 2 ^ reductionBits : ℝ) ≤ 1 / 2 ^ seriesBits := by
  have hle : (2 : ℝ) ^ (wholeBits + 1 + seriesBits) ≤ 2 ^ reductionBits := by
    refine pow_le_pow_right₀ one_le_two ?_
    have := reduction_le
    omega
  rw [pow_add, pow_succ] at hle
  rw [← mul_div_assoc, div_le_div_iff₀ (by positivity) (by positivity), one_mul]
  exact hle

/-- The quarter turn is exact but for the last bits of the reduction. -/
lemma abs_quarterTurn_div_sub_le :
    |(quarterTurn : ℝ) / 2 ^ reductionBits - Real.pi / 2| ≤ 2 / 2 ^ reductionBits := by
  have hR : (0 : ℝ) < 2 ^ reductionBits := by positivity
  have hsplit : (quarterTurn : ℝ) / 2 ^ reductionBits - Real.pi / 2
      = (quarterTurn - 2 ^ reductionBits * (Real.pi / 2)) / 2 ^ reductionBits := by
    field_simp
  rw [hsplit, abs_div, abs_of_pos hR]
  exact div_le_div_of_nonneg_right abs_quarterTurn_sub_le hR.le

/-- What is left of an angle, when bits of the reduction are dropped, is less than a bit of the
series below it. -/
lemma shiftRight_mem (m : Nat) :
    ((m >>> (reductionBits - seriesBits) : Nat) : ℝ) / 2 ^ seriesBits ≤ m / 2 ^ reductionBits ∧
      |(m : ℝ) / 2 ^ reductionBits - (m >>> (reductionBits - seriesBits) : Nat) / 2 ^ seriesBits|
        ≤ 1 / 2 ^ seriesBits := by
  have hS : (0 : ℝ) < 2 ^ seriesBits := by positivity
  have hm : (m : ℝ) / 2 ^ reductionBits
      = m / (2 ^ (reductionBits - seriesBits) : Nat) / 2 ^ seriesBits := by
    rw [div_div]
    push_cast
    rw [← pow_add, Nat.sub_add_cancel seriesBits_lt.le]
  have hcut := abs_div_sub_le m (Nat.two_pow_pos (reductionBits - seriesBits))
  rw [Nat.shiftRight_eq_div_pow, hm]
  refine ⟨div_le_div_of_nonneg_right Nat.cast_div_le hS.le, ?_⟩
  rw [← sub_div, abs_div, abs_of_pos hS, abs_sub_comm]
  exact div_le_div_of_nonneg_right hcut hS.le

/-- An angle is so many quarter turns and the angle within its quadrant, up to the last bits. -/
lemma exists_quadrant (h : units < unitsBound) : ∃ j : Nat, (quadrant units).1 = j % 4 ∧
    ((quadrant units).2 : ℝ) / 2 ^ seriesBits ≤ Real.pi / 2 + 2 / 2 ^ seriesBits ∧
    |(units : ℝ) / unitsPerOne - (j * (Real.pi / 2) + (quadrant units).2 / 2 ^ seriesBits)|
      ≤ 2 / 2 ^ seriesBits := by
  have hR : (0 : ℝ) < 2 ^ reductionBits := by positivity
  have hQ : 0 < quarterTurn := (Nat.two_pow_pos _).trans_le two_pow_le_quarterTurn
  have hvalue : (units : ℝ) / unitsPerOne
      = (units <<< (reductionBits - unitBits) : Nat) / 2 ^ reductionBits := by
    have hbits : (2 : ℝ) ^ reductionBits = 2 ^ (reductionBits - unitBits) * 2 ^ unitBits := by
      rw [← pow_add, Nat.sub_add_cancel unitBits_le]
    rw [Nat.shiftLeft_eq, hbits, unitsPerOne_eq]
    push_cast
    field_simp
  have hturns := quarterTurns_lt h
  have hquadrant : quadrant units = (units <<< (reductionBits - unitBits) / quarterTurn % 4,
    (units <<< (reductionBits - unitBits) % quarterTurn) >>> (reductionBits - seriesBits)) := rfl
  rw [hvalue, hquadrant]
  set x := units <<< (reductionBits - unitBits)
  have hdivmod : (x : ℝ) = quarterTurn * (x / quarterTurn : Nat) + (x % quarterTurn : Nat) := by
    exact_mod_cast (Nat.div_add_mod x quarterTurn).symm
  have hrest : ((x % quarterTurn : Nat) : ℝ) / 2 ^ reductionBits
      ≤ quarterTurn / 2 ^ reductionBits :=
    div_le_div_of_nonneg_right (Nat.cast_le.mpr (Nat.mod_lt x hQ).le) hR.le
  obtain ⟨hbelow, hnear⟩ := shiftRight_mem (x % quarterTurn)
  set j := x / quarterTurn
  have hbit := two_pow_div_le
  have hquarter := abs_quarterTurn_div_sub_le
  refine ⟨j, rfl, ?_, ?_⟩
  · have hsmall : 2 / (2 : ℝ) ^ reductionBits ≤ 2 ^ wholeBits * (2 / 2 ^ reductionBits) :=
      le_mul_of_one_le_left (by positivity) (one_le_pow₀ one_le_two)
    have hdouble : (1 : ℝ) / 2 ^ seriesBits ≤ 2 / 2 ^ seriesBits :=
      div_le_div_of_nonneg_right one_le_two (by positivity)
    linarith [(abs_le.mp hquarter).2]
  · -- the error of the quarter turn counts as often as there are quarter turns
    have hturn : |(j : ℝ) * (quarterTurn / 2 ^ reductionBits) - j * (Real.pi / 2)|
        ≤ 1 / 2 ^ seriesBits := by
      have hj : (j : ℝ) ≤ 2 ^ wholeBits := by exact_mod_cast hturns.le
      rw [← mul_sub, abs_mul, Nat.abs_cast]
      calc (j : ℝ) * |(quarterTurn : ℝ) / 2 ^ reductionBits - Real.pi / 2|
          ≤ 2 ^ wholeBits * (2 / 2 ^ reductionBits) :=
            mul_le_mul hj hquarter (abs_nonneg _) (by positivity)
        _ ≤ 1 / 2 ^ seriesBits := hbit
    have hsplit : (x : ℝ) / 2 ^ reductionBits
        = j * (quarterTurn / 2 ^ reductionBits) + (x % quarterTurn : Nat) / 2 ^ reductionBits := by
      rw [hdivmod]
      ring
    have hcombine (a b c d : ℝ) : a + b - (c + d) = (a - c) + (b - d) := by ring
    rw [hsplit, hcombine]
    refine (abs_add_le _ _).trans ((add_le_add hturn hnear).trans (le_of_eq ?_))
    ring

end Quadrant

/-! ### Sine and cosine -/

/-- The cosine and the sine after so many quarter turns. -/
lemma cos_quarterTurns (j : Nat) (y : ℝ) : Real.cos (j * (Real.pi / 2) + y)
    = if j % 4 == 1 || j % 4 == 2 then -(if j % 4 % 2 = 0 then Real.cos y else Real.sin y)
      else if j % 4 % 2 = 0 then Real.cos y else Real.sin y := by
  have hsplit : (j : ℝ) * (Real.pi / 2) + y
      = ((j % 4 : Nat) * (Real.pi / 2) + y) + (j / 4 : Nat) * (2 * Real.pi) := by
    have hdivmod : (j : ℝ) = 4 * (j / 4 : Nat) + (j % 4 : Nat) := by
      exact_mod_cast (Nat.div_add_mod j 4).symm
    rw [hdivmod]
    ring
  rw [hsplit, Real.cos_add_nat_mul_two_pi]
  have hlt := Nat.mod_lt j (by norm_num : 4 > 0)
  interval_cases hq : j % 4
  · simp
  · simp [add_comm (Real.pi / 2) y, Real.cos_add_pi_div_two]
  · rw [show ((2 : Nat) : ℝ) * (Real.pi / 2) + y = y + Real.pi by push_cast; ring]
    simp [Real.cos_add_pi]
  · rw [show ((3 : Nat) : ℝ) * (Real.pi / 2) + y = (y + Real.pi / 2) + Real.pi by push_cast; ring]
    simp [Real.cos_add_pi, Real.cos_add_pi_div_two]

lemma sin_quarterTurns (j : Nat) (y : ℝ) : Real.sin (j * (Real.pi / 2) + y)
    = if 2 ≤ j % 4 then -(if j % 4 % 2 = 0 then Real.sin y else Real.cos y)
      else if j % 4 % 2 = 0 then Real.sin y else Real.cos y := by
  have hsplit : (j : ℝ) * (Real.pi / 2) + y
      = ((j % 4 : Nat) * (Real.pi / 2) + y) + (j / 4 : Nat) * (2 * Real.pi) := by
    have hdivmod : (j : ℝ) = 4 * (j / 4 : Nat) + (j % 4 : Nat) := by
      exact_mod_cast (Nat.div_add_mod j 4).symm
    rw [hdivmod]
    ring
  rw [hsplit, Real.sin_add_nat_mul_two_pi]
  have hlt := Nat.mod_lt j (by norm_num : 4 > 0)
  interval_cases hq : j % 4
  · simp
  · simp [add_comm (Real.pi / 2) y, Real.sin_add_pi_div_two]
  · rw [show ((2 : Nat) : ℝ) * (Real.pi / 2) + y = y + Real.pi by push_cast; ring]
    simp [Real.sin_add_pi]
  · rw [show ((3 : Nat) : ℝ) * (Real.pi / 2) + y = (y + Real.pi / 2) + Real.pi by push_cast; ring]
    simp [Real.sin_add_pi, Real.sin_add_pi_div_two]

/-- Within its quadrant an angle has a sine and a cosine that are not below zero by more than the
last bits. -/
lemma quadrant_nonneg {r : Nat} (hr : (r : ℝ) / 2 ^ seriesBits ≤ Real.pi / 2 + 2 / 2 ^ seriesBits) :
    -2 ^ 15 ≤ 2 ^ seriesBits * Real.sin (r / 2 ^ seriesBits) ∧
      -2 ^ 15 ≤ 2 ^ seriesBits * Real.cos (r / 2 ^ seriesBits) := by
  have hS : (0 : ℝ) < 2 ^ seriesBits := by positivity
  have hsmall : 2 / (2 : ℝ) ^ seriesBits ≤ 1 := by
    have hcut : (2 : ℝ) ^ 15 * 2 ^ 40 ≤ 2 ^ seriesBits := by exact_mod_cast cutOff_le
    rw [div_le_one hS]
    linarith
  have hpi := Real.pi_gt_three
  have h0 : 0 ≤ (r : ℝ) / 2 ^ seriesBits := by positivity
  constructor
  · have hsin := Real.sin_nonneg_of_nonneg_of_le_pi h0 (by linarith)
    linarith [mul_nonneg hS.le hsin]
  · rcases le_total ((r : ℝ) / 2 ^ seriesBits) (Real.pi / 2) with hle | hle
    · have hcos := Real.cos_nonneg_of_mem_Icc ⟨by linarith, hle⟩
      linarith [mul_nonneg hS.le hcos]
    · -- past the quarter turn the cosine falls no faster than the angle grows
      have hcos := Real.abs_cos_sub_cos_le (r / 2 ^ seriesBits) (Real.pi / 2)
      rw [Real.cos_pi_div_two, sub_zero, abs_of_nonneg (sub_nonneg.mpr hle)] at hcos
      have hlow : -(2 / 2 ^ seriesBits) ≤ Real.cos (r / 2 ^ seriesBits) := by
        linarith [(abs_le.mp hcos).1]
      have hscaled := mul_le_mul_of_nonneg_left hlow hS.le
      rw [mul_neg, mul_div_cancel₀ _ hS.ne'] at hscaled
      linarith

/-- The size of a number. -/
lemma abs_value_finite (negative : Bool) {units : Nat} (hgrid : OnGrid units) :
    |((value (.finite negative units hgrid) : ℚ) : ℝ)| = units / unitsPerOne := by
  have habs : |value (.finite negative units hgrid)| = units / unitsPerOne := by
    rw [value, abs_div, abs_signed, abs_of_pos unitsPerOne_cast_pos]
  rw [← Rat.cast_abs, habs]
  push_cast
  rfl

lemma value_finite (negative : Bool) {units : Nat} (hgrid : OnGrid units) :
    ((value (.finite negative units hgrid) : ℚ) : ℝ)
      = (if negative then -1 else 1) * (units / unitsPerOne) := by
  rw [value, signed_cast]
  cases negative <;> push_cast <;> simp [neg_div]

/-- An angle below `2 ^ -27` differs from its sine, and its cosine from one, by less than a
rounding. -/
lemma tinyAngle_le {units : Nat} (h : units < tinyAngle) :
    (units : ℝ) / unitsPerOne ≤ 1 / 2 ^ 27 := by
  have hpow : (unitsPerOne : ℝ) = 2 ^ (unitBits - 27) * 2 ^ 27 := by
    have hbits : 27 ≤ unitBits := le_unitBits (by norm_num)
    rw [unitsPerOne_eq]
    push_cast
    rw [← pow_add, Nat.sub_add_cancel hbits]
  have hle : (units : ℝ) ≤ 2 ^ (unitBits - 27) := by
    rw [tinyAngle] at h
    exact_mod_cast h.le
  rw [hpow, div_le_div_iff₀ (by positivity) (by positivity), one_mul]
  exact mul_le_mul_of_nonneg_right hle (by positivity)

/-- The series that a quadrant calls for. -/
lemma quadrant_series {r : Nat} (hle : r ≤ 2 * 2 ^ seriesBits)
    (hr : (r : ℝ) / 2 ^ seriesBits ≤ Real.pi / 2 + 2 / 2 ^ seriesBits) (even : Prop)
    [Decidable even] :
    |((if even then cosineSeries r else sineSeries r : Nat) : ℝ) - 2 ^ seriesBits
        * (if even then Real.cos (r / 2 ^ seriesBits) else Real.sin (r / 2 ^ seriesBits))|
        ≤ 2 ^ 15 ∧
      |if even then Real.cos (r / 2 ^ seriesBits) else Real.sin (r / 2 ^ seriesBits)| ≤ 4 := by
  obtain ⟨hsin, hcos⟩ := quadrant_nonneg hr
  split_ifs
  · exact ⟨abs_cosineSeries_sub_le hle hcos, (Real.abs_cos_le_one _).trans (by norm_num)⟩
  · exact ⟨abs_sineSeries_sub_le hle hsin, (Real.abs_sin_le_one _).trans (by norm_num)⟩

/-- The last bits of an angle are less than a rounding. -/
lemma two_div_le : 2 / (2 : ℝ) ^ seriesBits ≤ 1 / 2 ^ 39 := by
  have hcut : (2 : ℝ) ^ 15 * 2 ^ 40 ≤ 2 ^ seriesBits := by exact_mod_cast cutOff_le
  rw [div_le_div_iff₀ (by positivity) (by positivity), one_mul]
  linarith

/-- **The cosine** of a finite number, of whatever size, is accurate. -/
theorem abs_cos_sub_le {x : Binary64} (hx : x.isFinite = true) :
    x.cos.isFinite = true ∧ |(x.cos.value : ℝ) - Real.cos x.value| ≤ 1 / 2 ^ 38 := by
  obtain ⟨negative, units, hgrid, rfl⟩ := exists_finite hx
  rw [← Real.cos_abs, abs_value_finite negative hgrid, cos]
  split_ifs with htiny
  · have hone : (1 : Binary64).value = 1 := by exact_mod_cast value_ofNat (n := 1) (by norm_num)
    have h0 : 0 ≤ (units : ℝ) / unitsPerOne := by positivity
    have hsq : ((units : ℝ) / unitsPerOne) ^ 2 ≤ (1 / 2 ^ 27) ^ 2 :=
      pow_le_pow_left₀ h0 (tinyAngle_le htiny) 2
    have hcos := Real.one_sub_sq_div_two_le_cos (x := units / unitsPerOne)
    refine ⟨isFinite_ofNat (by norm_num), ?_⟩
    rw [hone, Rat.cast_one, abs_of_nonneg (by linarith [Real.cos_le_one (units / unitsPerOne)])]
    norm_num at hsq ⊢
    linarith
  · obtain ⟨j, hq, hr, hangle⟩ := exists_quadrant hgrid.1
    obtain ⟨hseries, hmagnitude⟩ := quadrant_series (quadrant_snd_le units) hr (j % 4 % 2 = 0)
    obtain ⟨hfinite, hnear⟩ := abs_ofFixedPoint_sub_le (j % 4 == 1 || j % 4 == 2) hmagnitude hseries
    rw [← cos_quarterTurns] at hnear
    simp only [hq]
    refine ⟨hfinite, (abs_sub_le _ _ _).trans ((add_le_add hnear ?_).trans
      (by norm_num : (1 : ℝ) / 2 ^ 39 + 1 / 2 ^ 39 ≤ 1 / 2 ^ 38))⟩
    refine (Real.abs_cos_sub_cos_le _ _).trans ?_
    rw [abs_sub_comm]
    exact hangle.trans two_div_le

/-- **The sine** of a finite number, of whatever size, is accurate. -/
theorem abs_sin_sub_le {x : Binary64} (hx : x.isFinite = true) :
    x.sin.isFinite = true ∧ |(x.sin.value : ℝ) - Real.sin x.value| ≤ 1 / 2 ^ 38 := by
  obtain ⟨negative, units, hgrid, rfl⟩ := exists_finite hx
  rw [sin]
  split_ifs with htiny
  · refine ⟨rfl, (Real.abs_sub_sin_le _).trans ?_⟩
    rw [abs_value_finite negative hgrid]
    have hcube : ((units : ℝ) / unitsPerOne) ^ 3 ≤ (1 / 2 ^ 27) ^ 3 :=
      pow_le_pow_left₀ (by positivity) (tinyAngle_le htiny) 3
    norm_num at hcube ⊢
    linarith
  · obtain ⟨j, hq, hr, hangle⟩ := exists_quadrant hgrid.1
    obtain ⟨hseries, hmagnitude⟩ :=
      quadrant_series (quadrant_snd_le units) hr (¬ j % 4 % 2 = 0)
    simp only [ite_not] at hseries hmagnitude
    obtain ⟨hfinite, hnear⟩ := abs_ofFixedPoint_sub_le (negative != decide (2 ≤ j % 4)) hmagnitude
      hseries
    simp only [hq]
    have hsigned : Real.sin (value (.finite negative units hgrid) : ℚ)
        = (if negative then -1 else 1) * Real.sin (units / unitsPerOne) := by
      rw [value_finite]
      cases negative <;> simp
    -- the signs of the number and of the quadrant multiply
    have hsign (v : ℝ) : (if (negative != decide (2 ≤ j % 4)) = true then -v else v)
        = (if negative then -1 else 1) * if 2 ≤ j % 4 then -v else v := by
      cases negative <;> by_cases htwo : 2 ≤ j % 4 <;> simp [htwo]
    rw [hsign, ← sin_quarterTurns] at hnear
    refine ⟨hfinite, (abs_sub_le _ _ _).trans ((add_le_add hnear ?_).trans
      (by norm_num : (1 : ℝ) / 2 ^ 39 + 1 / 2 ^ 39 ≤ 1 / 2 ^ 38))⟩
    have hone : |(if negative then -1 else 1 : ℝ)| = 1 := by cases negative <;> simp
    rw [hsigned, ← mul_sub, abs_mul, hone, one_mul]
    refine (Real.abs_sin_sub_sin_le _ _).trans ?_
    rw [abs_sub_comm]
    exact hangle.trans two_div_le

end Binary64

end Swatch
