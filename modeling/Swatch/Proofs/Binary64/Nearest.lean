import Mathlib.Tactic
import Swatch.Binary64.Basic
/-!
Rounding as a function on rational numbers.

* `roundUnits_le_roundUnits`: rounding is monotone, however the quotients are written.
* `nearest`: the number of the format nearest to a rational one, without a largest number.
* `nearest_mono`, `nearest_neg`: it keeps the order, and the sign makes no difference.
* `Representable`, `nearest_of_representable`: the numbers of the format are rounded to themselves.
* `representable_intCast`: among them are the integers of 53 bits.
-/

namespace Swatch

/-! ### Rounding is monotone -/

lemma le_nearestEven (num den : Nat) : num / den ≤ nearestEven num den := by
  rw [nearestEven]
  split_ifs <;> omega

/-- A larger number of parts is not rounded to less. -/
lemma nearestEven_mono {a b : Nat} (den : Nat) (h : a ≤ b) :
    nearestEven a den ≤ nearestEven b den := by
  rcases (Nat.div_le_div_right (c := den) h).lt_or_eq with hlt | heq
  · calc nearestEven a den ≤ a / den + 1 := nearestEven_le a den
      _ ≤ b / den := hlt
      _ ≤ nearestEven b den := le_nearestEven b den
  · have hmod : a % den ≤ b % den := by
      have ha := Nat.div_add_mod a den
      have hb := Nat.div_add_mod b den
      rw [heq] at ha
      omega
    simp only [nearestEven, heq]
    split_ifs <;> omega

/-- The mantissa that is chosen has 53 bits, unless the quotient has fewer. -/
lemma pow_le_nearestEven {num den : Nat} (h : (num / den).log2 - 52 ≠ 0) :
    2 ^ (52 : Nat) ≤ nearestEven num (den <<< ((num / den).log2 - 52)) := by
  have hne : num / den ≠ 0 := by
    intro h0
    rw [h0] at h
    exact h rfl
  have hlog : 2 ^ (num / den).log2 ≤ num / den := (Nat.le_log2 hne).mp le_rfl
  refine le_trans ?_ (le_nearestEven _ _)
  rw [Nat.shiftLeft_eq, ← Nat.div_div_eq_div_mul, Nat.le_div_iff_mul_le (Nat.two_pow_pos _),
    ← Nat.pow_add]
  have hexp : 52 + ((num / den).log2 - 52) = (num / den).log2 := by omega
  rw [hexp]
  exact hlog

/-- Rounding is monotone: the mantissas are compared where the spacing is the same, and where it is
not, a full mantissa in the smaller spacing is a half one in the next. -/
lemma roundUnits_mono {a b : Nat} (den : Nat) (h : a ≤ b) :
    roundUnits a den ≤ roundUnits b den := by
  have hround (n : Nat) : roundUnits n den
      = nearestEven n (den <<< ((n / den).log2 - 52)) * 2 ^ ((n / den).log2 - 52) := by
    rw [roundUnits, Nat.shiftLeft_eq (nearestEven _ _)]
  have hlog : (a / den).log2 ≤ (b / den).log2 := by
    rw [Nat.log2_eq_log_two, Nat.log2_eq_log_two]
    exact Nat.log_mono_right (Nat.div_le_div_right h)
  rw [hround, hround]
  rcases (Nat.sub_le_sub_right hlog 52).lt_or_eq with hlt | heq
  · calc nearestEven a (den <<< ((a / den).log2 - 52)) * 2 ^ ((a / den).log2 - 52)
        ≤ 2 ^ (53 : Nat) * 2 ^ ((a / den).log2 - 52) :=
          Nat.mul_le_mul_right _ (nearestEven_shift_le a den)
      _ = 2 ^ (52 : Nat) * 2 ^ ((a / den).log2 - 52 + 1) := by
          rw [← Nat.pow_add, ← Nat.pow_add]
          congr 1
          omega
      _ ≤ 2 ^ (52 : Nat) * 2 ^ ((b / den).log2 - 52) :=
          Nat.mul_le_mul_left _ (Nat.pow_le_pow_right (by norm_num) hlt)
      _ ≤ nearestEven b (den <<< ((b / den).log2 - 52)) * 2 ^ ((b / den).log2 - 52) :=
          Nat.mul_le_mul_right _ (pow_le_nearestEven (by omega))
  · rw [heq]
    exact Nat.mul_le_mul_right _ (nearestEven_mono _ h)

/-- A smaller quotient is not rounded to more, however the two are written. -/
theorem roundUnits_le_roundUnits {num den num' den' : Nat} (hd : 0 < den) (hd' : 0 < den')
    (h : num * den' ≤ num' * den) : roundUnits num den ≤ roundUnits num' den' := by
  calc roundUnits num den = roundUnits (num * den') (den * den') :=
        (roundUnits_mul_right num den hd').symm
    _ ≤ roundUnits (num' * den) (den * den') := roundUnits_mono _ h
    _ = roundUnits (num' * den) (den' * den) := by rw [Nat.mul_comm den den']
    _ = roundUnits num' den' := roundUnits_mul_right num' den' hd

/-! ### The nearest number -/

lemma unitsPerOne_cast_pos : (0 : ℚ) < unitsPerOne := by exact_mod_cast unitsPerOne_pos

/-- The magnitude to which a rational number is rounded. -/
def nearestMagnitude (q : ℚ) : ℚ := roundUnits (q.num.natAbs * unitsPerOne) q.den / unitsPerOne

/-- The number of the format that is nearest to a rational number, if there were no largest one. -/
def nearest (q : ℚ) : ℚ := if q < 0 then -nearestMagnitude q else nearestMagnitude q

/-- A magnitude is not negative. -/
lemma nearestMagnitude_nonneg (q : ℚ) : 0 ≤ nearestMagnitude q := by
  rw [nearestMagnitude]
  positivity

lemma abs_eq_natAbs_div_den (q : ℚ) : |q| = (q.num.natAbs : ℚ) / q.den := by
  calc |q| = |(q.num : ℚ) / q.den| := by rw [Rat.num_div_den]
    _ = |(q.num : ℚ)| / q.den := by rw [abs_div, Nat.abs_cast]
    _ = (q.num.natAbs : ℚ) / q.den := by rw [Nat.cast_natAbs, Int.cast_abs]

/-- The magnitude is that of any quotient of units which lies below, as far as it is not above. -/
lemma nearestMagnitude_le_of_abs_le {q : ℚ} {num den : Nat} (hd : 0 < den)
    (h : |q| ≤ (num : ℚ) / den / unitsPerOne) :
    nearestMagnitude q ≤ (roundUnits num den : ℚ) / unitsPerOne := by
  have hqd : (0 : ℚ) < q.den := by exact_mod_cast q.den_pos
  have hdq : (0 : ℚ) < den := by exact_mod_cast hd
  have hU := unitsPerOne_cast_pos
  rw [abs_eq_natAbs_div_den, div_div, div_le_div_iff₀ hqd (by positivity)] at h
  have hnat : q.num.natAbs * (den * unitsPerOne) ≤ num * q.den := by exact_mod_cast h
  refine div_le_div_of_nonneg_right (Nat.cast_le.mpr ?_) hU.le
  refine roundUnits_le_roundUnits q.den_pos hd ?_
  calc q.num.natAbs * unitsPerOne * den = q.num.natAbs * (den * unitsPerOne) := by ring
    _ ≤ num * q.den := hnat

/-- The magnitude is that of any quotient of units which lies above, as far as it is not below. -/
lemma le_nearestMagnitude_of_le_abs {q : ℚ} {num den : Nat} (hd : 0 < den)
    (h : (num : ℚ) / den / unitsPerOne ≤ |q|) :
    (roundUnits num den : ℚ) / unitsPerOne ≤ nearestMagnitude q := by
  have hqd : (0 : ℚ) < q.den := by exact_mod_cast q.den_pos
  have hdq : (0 : ℚ) < den := by exact_mod_cast hd
  have hU := unitsPerOne_cast_pos
  rw [abs_eq_natAbs_div_den, div_div, div_le_div_iff₀ (by positivity) hqd] at h
  have hnat : num * q.den ≤ q.num.natAbs * (den * unitsPerOne) := by exact_mod_cast h
  refine div_le_div_of_nonneg_right (Nat.cast_le.mpr ?_) hU.le
  refine roundUnits_le_roundUnits hd q.den_pos ?_
  calc num * q.den ≤ q.num.natAbs * (den * unitsPerOne) := hnat
    _ = q.num.natAbs * unitsPerOne * den := by ring

/-- The magnitude of a quotient of units is what the quotient is rounded to. -/
lemma nearestMagnitude_eq {q : ℚ} {num den : Nat} (hd : 0 < den)
    (h : |q| = (num : ℚ) / den / unitsPerOne) :
    nearestMagnitude q = (roundUnits num den : ℚ) / unitsPerOne :=
  le_antisymm (nearestMagnitude_le_of_abs_le hd h.le) (le_nearestMagnitude_of_le_abs hd h.ge)

lemma nearestMagnitude_mono {p q : ℚ} (h : |p| ≤ |q|) :
    nearestMagnitude p ≤ nearestMagnitude q := by
  refine nearestMagnitude_le_of_abs_le q.den_pos (h.trans ?_)
  have hU := unitsPerOne_cast_pos
  rw [abs_eq_natAbs_div_den q]
  push_cast
  field_simp
  exact le_rfl

/-- The magnitude depends on the absolute value only. -/
lemma nearestMagnitude_congr {p q : ℚ} (h : |p| = |q|) :
    nearestMagnitude p = nearestMagnitude q :=
  le_antisymm (nearestMagnitude_mono h.le) (nearestMagnitude_mono h.ge)

@[simp] lemma nearestMagnitude_zero : nearestMagnitude 0 = 0 := by
  have h : |(0 : ℚ)| = ((0 : Nat) : ℚ) / (1 : Nat) / unitsPerOne := by simp
  rw [nearestMagnitude_eq Nat.one_pos h, roundUnits_of_onGrid ⟨unitsBound_pos, Nat.dvd_zero _⟩]
  simp

@[simp] lemma nearest_zero : nearest 0 = 0 := by simp [nearest]

/-- The magnitude is the absolute value of the nearest number. -/
lemma abs_nearest (q : ℚ) : |nearest q| = nearestMagnitude q := by
  rw [nearest]
  split_ifs
  · rw [abs_neg, abs_of_nonneg (nearestMagnitude_nonneg q)]
  · rw [abs_of_nonneg (nearestMagnitude_nonneg q)]

/-- The sign makes no difference. -/
@[simp] lemma nearest_neg (q : ℚ) : nearest (-q) = -nearest q := by
  rcases lt_trichotomy q 0 with h | rfl | h
  · rw [nearest, nearest, if_neg (by linarith), if_pos h, nearestMagnitude_congr (abs_neg q),
      neg_neg]
  · simp
  · rw [nearest, nearest, if_pos (by linarith), if_neg (by linarith),
      nearestMagnitude_congr (abs_neg q)]

lemma nearest_of_nonneg {q : ℚ} (h : 0 ≤ q) : nearest q = nearestMagnitude q := by
  rw [nearest, if_neg (by linarith)]

lemma nearest_nonneg {q : ℚ} (h : 0 ≤ q) : 0 ≤ nearest q := by
  rw [nearest_of_nonneg h]
  exact nearestMagnitude_nonneg q

/-- Rounding keeps the order. -/
theorem nearest_mono {p q : ℚ} (h : p ≤ q) : nearest p ≤ nearest q := by
  -- on one side of zero the magnitudes are compared, across it the signs
  have hsame {p q : ℚ} (hp : 0 ≤ p) (h : p ≤ q) : nearest p ≤ nearest q := by
    rw [nearest_of_nonneg hp, nearest_of_nonneg (hp.trans h)]
    refine nearestMagnitude_mono ?_
    rw [abs_of_nonneg hp, abs_of_nonneg (hp.trans h)]
    exact h
  rcases le_total 0 p with hp | hp
  · exact hsame hp h
  rcases le_total 0 q with hq | hq
  · have hneg : 0 ≤ nearest (-p) := nearest_nonneg (by linarith)
    rw [nearest_neg] at hneg
    linarith [nearest_nonneg hq]
  · have hneg : nearest (-q) ≤ nearest (-p) := hsame (by linarith) (by linarith)
    rw [nearest_neg, nearest_neg] at hneg
    linarith

/-! ### Numbers that are rounded to themselves -/

/-- A rational number is one of the format: a whole number of units on the grid. -/
def Representable (q : ℚ) : Prop := ∃ units, OnGrid units ∧ |q| = (units : ℚ) / unitsPerOne

lemma Representable.neg {q : ℚ} (h : Representable q) : Representable (-q) := by
  rw [Representable, abs_neg]
  exact h

/-- A number of the format is rounded to itself. -/
theorem nearest_of_representable {q : ℚ} (h : Representable q) : nearest q = q := by
  obtain ⟨units, hgrid, hq⟩ := h
  have hmagnitude : nearestMagnitude q = |q| := by
    have hone : |q| = (units : ℚ) / (1 : Nat) / unitsPerOne := by rw [hq, Nat.cast_one, div_one]
    rw [nearestMagnitude_eq Nat.one_pos hone, roundUnits_of_onGrid hgrid, hq]
  rw [nearest, hmagnitude]
  split_ifs with hneg
  · rw [abs_of_neg hneg, neg_neg]
  · rw [abs_of_nonneg (by linarith)]

/-- The numbers of the format lie below the bound of its units. -/
lemma Representable.abs_lt {q : ℚ} (h : Representable q) : |q| < unitsBound / unitsPerOne := by
  obtain ⟨units, ⟨hlt, -⟩, hq⟩ := h
  rw [hq]
  exact div_lt_div_of_pos_right (Nat.cast_lt.mpr hlt) unitsPerOne_cast_pos

/-- A whole number of at most 53 bits over a power of two is a number of the format. -/
lemma representable_div_pow {m k : Nat} (hm : m ≤ 2 ^ (53 : Nat)) (hk : k ≤ unitBits) :
    Representable ((m : ℚ) / 2 ^ k) := by
  have hshift : 2 ^ (unitBits - k) ≤ 2 ^ unitBits :=
    Nat.pow_le_pow_right Nat.two_pos (Nat.sub_le unitBits k)
  refine ⟨m * 2 ^ (unitBits - k), ⟨?_, pow_log2_sub_dvd _ hm⟩, ?_⟩
  · calc m * 2 ^ (unitBits - k) ≤ 2 ^ (53 : Nat) * 2 ^ unitBits := Nat.mul_le_mul hm hshift
      _ = 2 ^ ((53 : Nat) + unitBits) := (Nat.pow_add 2 53 unitBits).symm
      _ < 2 ^ (unitBits + 1024) := Nat.pow_lt_pow_right Nat.one_lt_two (by omega)
      _ = unitsBound := unitsBound_eq.symm
  · have hpow : (2 : ℚ) ^ unitBits = 2 ^ (unitBits - k) * 2 ^ k := by
      rw [← pow_add, Nat.sub_add_cancel hk]
    rw [abs_of_nonneg (by positivity), unitsPerOne_eq]
    push_cast
    rw [hpow]
    field_simp

/-- The natural numbers of 53 bits are numbers of the format. -/
lemma representable_natCast {n : Nat} (hn : n ≤ 2 ^ (53 : Nat)) : Representable (n : ℚ) := by
  have h := representable_div_pow hn (Nat.zero_le unitBits)
  rwa [pow_zero, div_one] at h

lemma representable_one : Representable 1 := by
  simpa using representable_natCast (n := 1) (by norm_num)

lemma representable_ofNat {n : Nat} [n.AtLeastTwo] (hn : n ≤ 2 ^ (53 : Nat)) :
    Representable (OfNat.ofNat n : ℚ) :=
  representable_natCast hn

/-- Parts of a power of two that is not too high. -/
lemma representable_two_pow_inv {k : Nat} (hk : k ≤ 6) : Representable (1 / 2 ^ k) := by
  simpa using representable_div_pow (m := 1) (by norm_num) (le_unitBits (by omega))

/-- The integers of 53 bits are numbers of the format. -/
lemma representable_intCast {n : ℤ} (hn : n.natAbs ≤ 2 ^ (53 : Nat)) : Representable (n : ℚ) := by
  obtain ⟨m, rfl | rfl⟩ := n.eq_nat_or_neg
  · exact_mod_cast representable_natCast (by simpa using hn)
  · push_cast
    exact (representable_natCast (by simpa using hn)).neg

end Swatch
