import Mathlib
import Swatch.Binary64.Angle
import Swatch.Proofs.Binary64.Error
/-!
The angle of a tangent, and the quarter turn, as Euler's series gives them.

The series for the angle whose tangent is `t` has only positive terms, and the derivative of a sum
of its terms misses that of the angle by one closed expression.  In fixed point each division cuts
off less than one, and since each term is at most half the one before, that never adds up to more
than two in one term.

* `Euler.abs_arctan_sub_sum_le`: the angle and a sum of terms, for a tangent of at most one.
* `abs_angleTerms_sub_le`: the terms in fixed point and the exact ones.
* `abs_angleBelowEighth_sub_le`: the angle of a tangent of at most one, in units of the series.
* `abs_quarterTurn_sub_le`: the quarter turn is within two of its last bits.
-/

namespace Swatch

open Finset

/-- What the divisions of a series cut off is far below the last bit of a number. -/
lemma cutOff_le : 2 ^ (15 : Nat) * 2 ^ (40 : Nat) ≤ 2 ^ seriesBits := by
  rw [seriesBits_eq]
  decide

/-- Sixteen guard bits are enough for what the divisions of the quarter turn cut off. -/
lemma cutOff_quarterTurn_le : 4 * (reductionBits + 17) + 1 ≤ 2 ^ (16 : Nat) := by
  rw [reductionBits_eq]
  decide

/-! ### The size of a quarter turn -/

namespace Binary64

/-- The reduction has more bits than the series. -/
lemma seriesBits_lt : seriesBits < reductionBits := by
  rw [seriesBits_eq, reductionBits_eq]
  decide

/-- Each term is at most half the one before. -/
lemma quarterTurnTerms_le (steps n term : Nat) : quarterTurnTerms steps n term ≤ 2 * term := by
  induction steps generalizing n term with
  | zero => exact Nat.zero_le _
  | succ steps ih =>
      have hterm : term * n / (2 * n + 1) ≤ term / 2 := by
        rw [Nat.le_div_iff_mul_le Nat.two_pos]
        have := Nat.div_mul_le_self (term * n) (2 * n + 1)
        nlinarith
      have := ih (n + 1) (term * n / (2 * n + 1))
      rw [quarterTurnTerms]
      omega

lemma quarterTurn_le : quarterTurn ≤ 2 * 2 ^ reductionBits := by
  rw [quarterTurn, Nat.shiftRight_eq_div_pow]
  refine Nat.div_le_of_le_mul ((quarterTurnTerms_le _ _ _).trans (le_of_eq ?_))
  rw [Nat.pow_add]
  ring

/-- A quarter turn in the bits of the series is below two. -/
lemma quarterTurn_shift_le :
    quarterTurn >>> (reductionBits - seriesBits) ≤ 2 * 2 ^ seriesBits := by
  have hpow : 2 ^ reductionBits = 2 ^ (reductionBits - seriesBits) * 2 ^ seriesBits := by
    rw [← Nat.pow_add, Nat.sub_add_cancel seriesBits_lt.le]
  rw [Nat.shiftRight_eq_div_pow]
  refine Nat.div_le_of_le_mul (quarterTurn_le.trans (le_of_eq ?_))
  rw [hpow]
  ring

end Binary64

/-! ### Euler's series -/

namespace Euler

/-- The coefficients of Euler's series, `1`, `2/3`, `(2·4)/(3·5)` and so on. -/
noncomputable def coefficient : Nat → ℝ
  | 0 => 1
  | n + 1 => coefficient n * (2 * (n + 1) / (2 * (n + 1) + 1))

lemma coefficient_mem (n : Nat) : 0 ≤ coefficient n ∧ coefficient n ≤ 1 := by
  induction n with
  | zero => exact ⟨zero_le_one, le_rfl⟩
  | succ n ih =>
      have hpos : (0 : ℝ) < 2 * (n + 1) + 1 := by positivity
      have hle : (2 * (n + 1) / (2 * (n + 1) + 1) : ℝ) ≤ 1 := by
        rw [div_le_one hpos]
        linarith
      rw [coefficient]
      exact ⟨mul_nonneg ih.1 (by positivity), mul_le_one₀ ih.2 (by positivity) hle⟩

/-- The terms of Euler's series for the angle with a given tangent. -/
noncomputable def term (n : Nat) (t : ℝ) : ℝ :=
  coefficient n * t ^ (2 * n + 1) / (1 + t ^ 2) ^ (n + 1)

/-- What the derivative of the series still lacks when `n` terms are summed. -/
noncomputable def rest (n : Nat) (t : ℝ) : ℝ :=
  coefficient n * (2 * n + 1) * t ^ (2 * n) / (1 + t ^ 2) ^ (n + 1)

/-- The derivative of a term is what it takes off the rest. -/
lemma hasDerivAt_term (n : Nat) (t : ℝ) :
    HasDerivAt (term n) (rest n t - rest (n + 1) t) t := by
  have hpos : (0 : ℝ) < 1 + t ^ 2 := by positivity
  have hnum : HasDerivAt (fun t : ℝ => coefficient n * t ^ (2 * n + 1))
      (coefficient n * ((2 * n + 1 : ℕ) * t ^ (2 * n))) t :=
    (hasDerivAt_pow (2 * n + 1) t).const_mul _
  have hbase : HasDerivAt (fun t : ℝ => 1 + t ^ 2) (2 * t) t := by
    simpa using (hasDerivAt_pow 2 t).const_add 1
  have hden : HasDerivAt (fun t : ℝ => (1 + t ^ 2) ^ (n + 1))
      ((n + 1 : ℕ) * (1 + t ^ 2) ^ n * (2 * t)) t := hbase.pow (n + 1)
  refine (hnum.div hden (by positivity)).congr_deriv ?_
  rw [rest, rest, coefficient]
  have h1 : (2 * ((n : ℝ) + 1) + 1) ≠ 0 := by positivity
  have h2 : (1 + t ^ 2) ≠ 0 := hpos.ne'
  push_cast
  field_simp
  ring

lemma rest_zero (t : ℝ) : rest 0 t = 1 / (1 + t ^ 2) := by
  simp [rest, coefficient]

/-- Below an eighth of a turn the rest is at least halved by each term. -/
lemma abs_rest_le {t : ℝ} (h0 : 0 ≤ t) (h1 : t ≤ 1) (n : Nat) :
    |rest n t| ≤ (2 * n + 1) / 2 ^ n := by
  obtain ⟨hc0, hc1⟩ := coefficient_mem n
  have hpos : (0 : ℝ) < 1 + t ^ 2 := by positivity
  have hratio : t ^ 2 / (1 + t ^ 2) ≤ 1 / 2 := by
    rw [div_le_div_iff₀ hpos two_pos]
    nlinarith
  have hsplit : rest n t
      = coefficient n * (2 * n + 1) * (t ^ 2 / (1 + t ^ 2)) ^ n * (1 / (1 + t ^ 2)) := by
    rw [rest, div_pow, ← pow_mul, pow_succ]
    field_simp
  have hinv : 1 / (1 + t ^ 2) ≤ 1 := by
    rw [div_le_one hpos]
    nlinarith
  rw [hsplit, abs_of_nonneg (by positivity)]
  calc coefficient n * (2 * n + 1) * (t ^ 2 / (1 + t ^ 2)) ^ n * (1 / (1 + t ^ 2))
      ≤ 1 * (2 * n + 1) * (1 / 2) ^ n * 1 := by gcongr
    _ = (2 * n + 1) / 2 ^ n := by rw [one_div, inv_pow]; ring

/-- The derivative of a sum of terms lacks the rest. -/
lemma hasDerivAt_sum (n : Nat) (t : ℝ) :
    HasDerivAt (fun t => ∑ i ∈ range n, term i t) (1 / (1 + t ^ 2) - rest n t) t := by
  have hsum := HasDerivAt.fun_sum fun i (_ : i ∈ range n) => hasDerivAt_term i t
  rwa [sum_range_sub', rest_zero] at hsum

/-- **Euler's series**: the angle below an eighth of a turn by its tangent. -/
theorem abs_arctan_sub_sum_le {t : ℝ} (h0 : 0 ≤ t) (h1 : t ≤ 1) (n : Nat) :
    |Real.arctan t - ∑ i ∈ range n, term i t| ≤ (2 * n + 1) / 2 ^ n := by
  have hderiv : ∀ x ∈ Set.Icc (0 : ℝ) 1, HasDerivWithinAt
      (fun t => Real.arctan t - ∑ i ∈ range n, term i t) (rest n x) (Set.Icc 0 1) x := by
    intro x _
    refine ((Real.hasDerivAt_arctan x).sub (hasDerivAt_sum n x)).hasDerivWithinAt.congr_deriv ?_
    ring
  have hbound : ∀ x ∈ Set.Icc (0 : ℝ) 1, ‖rest n x‖ ≤ (2 * n + 1) / 2 ^ n :=
    fun x hx => abs_rest_le hx.1 hx.2 n
  have hmean := (convex_Icc (0 : ℝ) 1).norm_image_sub_le_of_norm_hasDerivWithin_le hderiv hbound
    (Set.left_mem_Icc.mpr zero_le_one) (Set.mem_Icc.mpr ⟨h0, h1⟩)
  have hzero : ∑ i ∈ range n, term i 0 = 0 := by simp [term]
  rw [Real.arctan_zero, hzero, sub_zero, sub_zero, sub_zero] at hmean
  refine hmean.trans ?_
  rw [Real.norm_of_nonneg h0]
  exact mul_le_of_le_one_right (by positivity) h1

/-- A term by the square of the sine of the angle. -/
lemma term_eq (n : Nat) (t : ℝ) :
    term n t = t / (1 + t ^ 2) * (coefficient n * (t ^ 2 / (1 + t ^ 2)) ^ n) := by
  rw [term, div_pow, ← pow_mul, pow_succ, pow_succ]
  field_simp

end Euler

/-! ### The series in fixed point -/

/-- A quotient of whole numbers is less than one below the exact one. -/
lemma abs_div_sub_le (a : Nat) {b : Nat} (hb : 0 < b) : |((a / b : Nat) : ℝ) - a / b| ≤ 1 := by
  have hbr : (0 : ℝ) < b := Nat.cast_pos.mpr hb
  have hle : ((a / b : Nat) : ℝ) ≤ a / b := Nat.cast_div_le
  have hlt : (a : ℝ) / b < (a / b : Nat) + 1 := by
    rw [div_lt_iff₀ hbr]
    exact_mod_cast Nat.lt_mul_of_div_lt (Nat.lt_succ_self (a / b)) hb
  exact abs_le.mpr ⟨by linarith, by linarith⟩

/-- A term of the series is near the exact one if the term before is: what the division cuts off is
added to the error, which is halved. -/
lemma abs_nextTerm_sub_le {square total : Nat} (h : 2 * square ≤ total) (htotal : 0 < total)
    {term : Nat} {exact : ℝ} (n : Nat) (hterm : |(term : ℝ) - exact| ≤ 2) :
    |((term * (2 * (n + 1) * square) / ((2 * (n + 1) + 1) * total) : Nat) : ℝ)
      - exact * (2 * (n + 1) / (2 * (n + 1) + 1) * (square / total))| ≤ 2 := by
  have htotal' : (0 : ℝ) < total := Nat.cast_pos.mpr htotal
  have hn : (0 : ℝ) < 2 * (n + 1) + 1 := by positivity
  set factor : ℝ := 2 * (n + 1) / (2 * (n + 1) + 1) * (square / total) with hfactor
  have hhalf : |factor| ≤ 1 / 2 := by
    have hsquare : (square / total : ℝ) ≤ 1 / 2 := by
      rw [div_le_div_iff₀ htotal' two_pos]
      exact_mod_cast (by omega : square * 2 ≤ 1 * total)
    have hone : (2 * (n + 1) / (2 * (n + 1) + 1) : ℝ) ≤ 1 := by
      rw [div_le_one hn]
      linarith
    rw [hfactor, abs_of_nonneg (by positivity)]
    calc _ ≤ 1 * (1 / 2 : ℝ) := by gcongr
      _ = 1 / 2 := one_mul _
  have hdiv := abs_div_sub_le (term * (2 * (n + 1) * square))
    (b := (2 * (n + 1) + 1) * total) (Nat.mul_pos (by omega) htotal)
  have hquotient : ((term * (2 * (n + 1) * square) : Nat) : ℝ)
      / ((2 * (n + 1) + 1) * total : Nat) = term * factor := by
    rw [hfactor]
    push_cast
    field_simp
  rw [hquotient] at hdiv
  have hmul : |(term : ℝ) * factor - exact * factor| ≤ 1 := by
    rw [← sub_mul, abs_mul]
    calc |(term : ℝ) - exact| * |factor| ≤ 2 * (1 / 2) :=
          mul_le_mul hterm hhalf (abs_nonneg _) two_pos.le
      _ = 1 := by norm_num
  calc _ ≤ |((term * (2 * (n + 1) * square) / ((2 * (n + 1) + 1) * total) : Nat) : ℝ)
        - term * factor| + |(term : ℝ) * factor - exact * factor| := abs_sub_le _ _ _
    _ ≤ 1 + 1 := add_le_add hdiv hmul
    _ = 2 := by norm_num

/-- The terms in fixed point are near the exact ones from the `n`-th on, if the `n`-th is. -/
lemma abs_angleTerms_sub_le {square total : Nat} (h : 2 * square ≤ total) (htotal : 0 < total)
    (scale : ℝ) (steps n term : Nat)
    (hterm : |(term : ℝ) - scale * (Euler.coefficient n * (square / total) ^ n)| ≤ 2) :
    |(angleTerms square total steps (n + 1) term : ℝ)
      - ∑ i ∈ range steps, scale * (Euler.coefficient (n + i) * (square / total) ^ (n + i))|
      ≤ 2 * steps := by
  induction steps generalizing n term with
  | zero => simp [angleTerms]
  | succ steps ih =>
      have hnext := abs_nextTerm_sub_le h htotal n hterm
      have hexact : scale * (Euler.coefficient n * (square / total : ℝ) ^ n)
          * (2 * (n + 1) / (2 * (n + 1) + 1) * (square / total))
          = scale * (Euler.coefficient (n + 1) * (square / total) ^ (n + 1)) := by
        rw [Euler.coefficient, pow_succ]
        ring
      rw [hexact] at hnext
      have hrest := ih (n + 1) _ hnext
      have hshift (i : Nat) : n + 1 + i = n + (i + 1) := by omega
      simp only [hshift] at hrest
      rw [sum_range_succ', angleTerms, Nat.cast_add]
      have hsplit (a b c d : ℝ) : a + b - (c + d) = (a - d) + (b - c) := by ring
      rw [hsplit]
      refine (abs_add_le _ _).trans ?_
      simp only [Nat.add_zero]
      push_cast
      linarith

/-! ### Angles below an eighth of a turn -/

/-- The angle is no farther from another one than the tangent from its tangent. -/
lemma abs_arctan_sub_arctan_le (x y : ℝ) : |Real.arctan x - Real.arctan y| ≤ |x - y| := by
  have hbound : ∀ t ∈ (Set.univ : Set ℝ), ‖1 / (1 + t ^ 2)‖ ≤ 1 := by
    intro t _
    have hpos : (0 : ℝ) < 1 + t ^ 2 := by positivity
    rw [Real.norm_of_nonneg (by positivity), div_le_one hpos]
    nlinarith
  have hmean := convex_univ.norm_image_sub_le_of_norm_hasDerivWithin_le
    (fun t _ => (Real.hasDerivAt_arctan t).hasDerivWithinAt) hbound (Set.mem_univ y)
    (Set.mem_univ x)
  rwa [one_mul, Real.norm_eq_abs, Real.norm_eq_abs] at hmean

/-- The series in fixed point, for a tangent in fixed point. -/
lemma abs_angleTerms_sub_arctan_le {t : Nat} (ht : t ≤ 2 ^ seriesBits) :
    |(angleTerms (t * t) (2 ^ (2 * seriesBits) + t * t) seriesBits 1
        (t * 2 ^ (2 * seriesBits) / (2 ^ (2 * seriesBits) + t * t)) : ℝ)
      - 2 ^ seriesBits * Real.arctan (t / 2 ^ seriesBits)| ≤ 4 * seriesBits + 1 := by
  have hS : (0 : ℝ) < 2 ^ seriesBits := by positivity
  have hdouble : (2 : ℝ) ^ (2 * seriesBits) = (2 ^ seriesBits) ^ 2 := by
    rw [← pow_mul, Nat.mul_comm]
  have hsquare : 2 * (t * t) ≤ 2 ^ (2 * seriesBits) + t * t := by
    have hle : t * t ≤ 2 ^ (2 * seriesBits) := by
      rw [Nat.two_mul seriesBits, Nat.pow_add]
      exact Nat.mul_le_mul ht ht
    omega
  have htotal : 0 < 2 ^ (2 * seriesBits) + t * t := Nat.add_pos_left (Nat.two_pow_pos _) _
  set x : ℝ := t / 2 ^ seriesBits with hx
  have hx0 : 0 ≤ x := by positivity
  have hx1 : x ≤ 1 := by
    rw [hx, div_le_one hS]
    exact_mod_cast ht
  have hsine : ((t * t : Nat) : ℝ) / (2 ^ (2 * seriesBits) + t * t : Nat)
      = x ^ 2 / (1 + x ^ 2) := by
    rw [hx]
    push_cast
    rw [hdouble]
    field_simp
  have hfirst : |((t * 2 ^ (2 * seriesBits) / (2 ^ (2 * seriesBits) + t * t) : Nat) : ℝ)
      - 2 ^ seriesBits * (x / (1 + x ^ 2)) * (Euler.coefficient 0
        * (((t * t : Nat) : ℝ) / (2 ^ (2 * seriesBits) + t * t : Nat)) ^ 0)| ≤ 2 := by
    have hdiv := abs_div_sub_le (t * 2 ^ (2 * seriesBits)) htotal
    have hquotient : ((t * 2 ^ (2 * seriesBits) : Nat) : ℝ) / (2 ^ (2 * seriesBits) + t * t : Nat)
        = 2 ^ seriesBits * (x / (1 + x ^ 2)) := by
      rw [hx]
      push_cast
      rw [hdouble]
      field_simp
    rw [hquotient] at hdiv
    rw [Euler.coefficient, pow_zero, mul_one, mul_one]
    linarith
  have hsum := abs_angleTerms_sub_le hsquare htotal _ seriesBits 0 _ hfirst
  have hterms : ∑ i ∈ range seriesBits, 2 ^ seriesBits * (x / (1 + x ^ 2))
      * (Euler.coefficient (0 + i)
        * (((t * t : Nat) : ℝ) / (2 ^ (2 * seriesBits) + t * t : Nat)) ^ (0 + i))
      = 2 ^ seriesBits * ∑ i ∈ range seriesBits, Euler.term i x := by
    rw [mul_sum]
    refine sum_congr rfl fun i _ => ?_
    rw [Nat.zero_add, hsine, Euler.term_eq]
    ring
  have hseries : |2 ^ seriesBits * ∑ i ∈ range seriesBits, Euler.term i x
      - 2 ^ seriesBits * Real.arctan x| ≤ 2 * seriesBits + 1 := by
    rw [← mul_sub, abs_mul, abs_of_pos hS, abs_sub_comm, mul_comm, ← le_div_iff₀ hS]
    exact Euler.abs_arctan_sub_sum_le hx0 hx1 seriesBits
  rw [hterms] at hsum
  refine (abs_sub_le _ _ _).trans ((add_le_add hsum hseries).trans (le_of_eq ?_))
  ring

/-- The angle of a tangent of at most one, in units of the series. -/
lemma abs_angleBelowEighth_sub_le {a b : Nat} (hab : a ≤ b) (hb : 0 < b) :
    |(angleBelowEighth a b : ℝ) - 2 ^ seriesBits * Real.arctan (a / b)| ≤ 4 * seriesBits + 2 := by
  have hS : (0 : ℝ) < 2 ^ seriesBits := by positivity
  have ht : a * 2 ^ seriesBits / b ≤ 2 ^ seriesBits :=
    Nat.div_le_of_le_mul (Nat.mul_le_mul_right _ hab)
  have hseries := abs_angleTerms_sub_arctan_le ht
  have hdiv := abs_div_sub_le (a * 2 ^ seriesBits) hb
  rw [angleBelowEighth]
  simp only [Nat.shiftLeft_eq]
  set t := a * 2 ^ seriesBits / b
  have hclose : |(t : ℝ) / 2 ^ seriesBits - a / b| ≤ 1 / 2 ^ seriesBits := by
    have hsplit : (t : ℝ) / 2 ^ seriesBits - a / b
        = (t - ((a * 2 ^ seriesBits : Nat) : ℝ) / b) / 2 ^ seriesBits := by
      push_cast
      field_simp
    rw [hsplit, abs_div, abs_of_pos hS]
    exact div_le_div_of_nonneg_right hdiv hS.le
  have htangent : |2 ^ seriesBits * Real.arctan (t / 2 ^ seriesBits)
      - 2 ^ seriesBits * Real.arctan (a / b)| ≤ 1 := by
    rw [← mul_sub, abs_mul, abs_of_pos hS]
    calc 2 ^ seriesBits * |Real.arctan (t / 2 ^ seriesBits) - Real.arctan (a / b)|
        ≤ 2 ^ seriesBits * (1 / 2 ^ seriesBits) :=
          mul_le_mul_of_nonneg_left ((abs_arctan_sub_arctan_le _ _).trans hclose) hS.le
      _ = 1 := mul_one_div_cancel hS.ne'
  refine (abs_sub_le _ _ _).trans ((add_le_add hseries htangent).trans (le_of_eq ?_))
  ring

/-! ### The quarter turn -/

/-- The series of the quarter turn is Euler's for an eighth of a turn. -/
lemma quarterTurnTerms_eq (steps n term : Nat) :
    quarterTurnTerms steps n term = angleTerms 1 2 steps n term := by
  induction steps generalizing n term with
  | zero => rfl
  | succ steps ih =>
      have hterm : term * n / (2 * n + 1) = term * (2 * n * 1) / ((2 * n + 1) * 2) := by
        rw [Nat.mul_one, Nat.mul_comm 2 n, ← Nat.mul_assoc, Nat.mul_div_mul_right _ _ Nat.two_pos]
      rw [quarterTurnTerms, angleTerms, ih, hterm]

/-- A quarter turn in units of its reduction. -/
theorem abs_quarterTurn_sub_le :
    |(quarterTurn : ℝ) - 2 ^ reductionBits * (Real.pi / 2)| ≤ 2 := by
  set bits := reductionBits + 17 with hbits
  set scale : ℝ := 2 ^ (reductionBits + 16) with hscale
  have hscalepos : 0 < scale := by positivity
  have hfirst : |((2 ^ (reductionBits + 16) : Nat) : ℝ)
      - scale * (Euler.coefficient 0 * (((1 : Nat) : ℝ) / (2 : Nat)) ^ 0)| ≤ 2 := by
    rw [Euler.coefficient, hscale]
    push_cast
    norm_num
  have hsum := abs_angleTerms_sub_le (show 2 * 1 ≤ 2 from le_rfl) Nat.two_pos scale bits 0 _ hfirst
  rw [← quarterTurnTerms_eq] at hsum
  have hterms : ∑ i ∈ range bits, scale * (Euler.coefficient (0 + i)
      * (((1 : Nat) : ℝ) / (2 : Nat)) ^ (0 + i))
      = 2 * scale * ∑ i ∈ range bits, Euler.term i 1 := by
    rw [mul_sum]
    refine sum_congr rfl fun i _ => ?_
    rw [Nat.zero_add, Euler.term_eq]
    norm_num
    ring
  have hseries := Euler.abs_arctan_sub_sum_le zero_le_one le_rfl bits
  rw [Real.arctan_one] at hseries
  have hrest : |2 * scale * ∑ i ∈ range bits, Euler.term i 1 - scale * (Real.pi / 2)|
      ≤ 2 * bits + 1 := by
    have hsplit : 2 * scale * ∑ i ∈ range bits, Euler.term i 1 - scale * (Real.pi / 2)
        = -(2 * scale * (Real.pi / 4 - ∑ i ∈ range bits, Euler.term i 1)) := by ring
    have hdouble : (2 : ℝ) ^ bits = 2 * scale := by
      rw [hbits, hscale, ← pow_succ']
    rw [hsplit, abs_neg, abs_mul, abs_of_pos (by positivity), ← hdouble, mul_comm,
      ← le_div_iff₀ (by positivity)]
    exact hseries
  rw [hterms] at hsum
  have hterm := (abs_sub_le _ _ _).trans (add_le_add hsum hrest)
  set total := quarterTurnTerms bits 1 (2 ^ (reductionBits + 16)) with htotal
  have hquarter : quarterTurn = total / 2 ^ (16 : Nat) := by
    rw [quarterTurn, Nat.shiftRight_eq_div_pow]
  have hdiv := abs_div_sub_le total (Nat.two_pow_pos 16)
  have hcut : (4 * bits + 1 : ℝ) ≤ 2 ^ 16 := by exact_mod_cast cutOff_quarterTurn_le
  have hscaled : |(total : ℝ) / (2 ^ (16 : Nat) : Nat) - 2 ^ reductionBits * (Real.pi / 2)|
      ≤ 1 := by
    have hsplit : (total : ℝ) / (2 ^ (16 : Nat) : Nat) - 2 ^ reductionBits * (Real.pi / 2)
        = (total - scale * (Real.pi / 2)) / 2 ^ 16 := by
      rw [hscale, pow_add]
      push_cast
      ring
    rw [hsplit, abs_div, abs_of_pos (by positivity : (0 : ℝ) < 2 ^ 16), div_le_one (by positivity)]
    refine hterm.trans (le_trans (le_of_eq ?_) hcut)
    ring
  rw [hquarter]
  refine (abs_sub_le _ _ _).trans ((add_le_add hdiv hscaled).trans (le_of_eq ?_))
  norm_num

/-! ### Numbers in fixed point -/

namespace Binary64

/-- A quotient of units that is near a number of moderate size is rounded to a number near it. -/
lemma abs_round_sub_le (negative : Bool) {num den : Nat} (hden : 0 < den) {v : ℝ} (hv : |v| ≤ 4)
    (h : |(num : ℝ) / den / unitsPerOne - v| ≤ 1 / 2 ^ 40) :
    (round negative num den).isFinite = true ∧
      |((round negative num den).value : ℝ) - (if negative then -v else v)| ≤ 1 / 2 ^ 39 := by
  have hround := isRounded_round negative num hden
  have hsigned : (signed negative num : ℚ) / den / unitsPerOne
      = if negative then -(num / den / unitsPerOne : ℚ) else num / den / unitsPerOne := by
    rw [signed_cast]
    split_ifs <;> ring
  rw [hsigned] at hround
  have hmagnitude : |(if negative then -(num / den / unitsPerOne : ℚ)
      else num / den / unitsPerOne)| ≤ 5 := by
    have hreal : (num : ℝ) / den / unitsPerOne ≤ 5 := by
      have hsmall : (1 : ℝ) / 2 ^ 40 ≤ 1 := by norm_num
      linarith [(abs_le.mp h).2, (abs_le.mp hv).2]
    have hrat : (num : ℚ) / den / unitsPerOne ≤ 5 := by
      have hcast : (((num : ℚ) / den / unitsPerOne : ℚ) : ℝ) ≤ (5 : ℚ) := by
        push_cast
        exact hreal
      exact Rat.cast_le.mp hcast
    have habs : |(if negative then -(num / den / unitsPerOne : ℚ) else num / den / unitsPerOne)|
        = num / den / unitsPerOne := by
      split_ifs
      · rw [abs_neg, abs_of_nonneg (by positivity)]
      · exact abs_of_nonneg (by positivity)
    rwa [habs]
  have hwithin : Within 5 (round negative num den) := hround.within (by norm_num) hmagnitude
  refine ⟨hwithin.isFinite, ?_⟩
  have herror := abs_nearest_sub_le (hmagnitude.trans (by norm_num : (5 : ℚ) ≤ 1024))
  rw [← hround.value_eq hwithin.isFinite, roundoff] at herror
  have herror' : |((round negative num den).value : ℝ) - (if negative
      then -(num / den / unitsPerOne : ℝ) else num / den / unitsPerOne)| ≤ 1 / 2 ^ 40 := by
    have hcast := (Rat.cast_le (K := ℝ)).mpr herror
    split_ifs at hcast ⊢ <;>
    · push_cast at hcast
      exact hcast
  have hnear : |(if negative then -(num / den / unitsPerOne : ℝ) else num / den / unitsPerOne)
      - (if negative then -v else v)| ≤ 1 / 2 ^ 40 := by
    split_ifs
    · rw [neg_sub_neg, abs_sub_comm]
      exact h
    · exact h
  refine (abs_sub_le _ _ _).trans ((add_le_add herror' hnear).trans (le_of_eq ?_))
  norm_num

/-- A number in fixed point is rounded once. -/
lemma abs_ofFixedPoint_sub_le (negative : Bool) {n : Nat} {v : ℝ} (hv : |v| ≤ 4)
    (h : |(n : ℝ) - 2 ^ seriesBits * v| ≤ 2 ^ 15) :
    (ofFixedPoint negative n).isFinite = true ∧
      |((ofFixedPoint negative n).value : ℝ) - (if negative then -v else v)| ≤ 1 / 2 ^ 39 := by
  have hS : (0 : ℝ) < 2 ^ seriesBits := by positivity
  have hU : (unitsPerOne : ℝ) ≠ 0 := Nat.cast_ne_zero.mpr unitsPerOne_pos.ne'
  have hcut : (2 : ℝ) ^ 15 / 2 ^ seriesBits ≤ 1 / 2 ^ 40 := by
    rw [div_le_div_iff₀ hS (by positivity), one_mul]
    exact_mod_cast cutOff_le
  have hsplit : ((n * unitsPerOne : Nat) : ℝ) / (2 ^ seriesBits : Nat) / unitsPerOne - v
      = (n - 2 ^ seriesBits * v) / 2 ^ seriesBits := by
    push_cast
    field_simp
  refine abs_round_sub_le negative (Nat.two_pow_pos seriesBits) hv ?_
  rw [hsplit, abs_div, abs_of_pos hS]
  exact (div_le_div_of_nonneg_right h hS.le).trans hcut

end Binary64

end Swatch
