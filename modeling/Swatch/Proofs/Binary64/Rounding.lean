import Swatch.Proofs.Binary64.Integer
/-!
The nearest integer is found exactly, although the fraction that decides it is rounded.

The fraction of a number from a half on is itself a number of the format, for the grid of such a
number is that of the fraction or finer than it needs.  Of a smaller number the fraction is the
number itself, or, below zero, so near to one that rounding keeps it above a half.

* `OnGrid.mod_two_pow`: what a power of two leaves of a point of the grid lies on the grid.
* `Binary64.exists_int_value_ofInt`: an integer of any size is rounded to an integer.
* `Binary64.representable_floor`: the integer below a number is a number of the format.
* `Binary64.half_le_fraction_iff`: the rounded fraction is at least a half just if the exact one is.
* `Binary64.exists_nearest_int`: the nearest integer is at most a half away, and a half goes up.
* `Binary64.value_remainderTwo`: the remainder of a division by two is exact.
-/

namespace Swatch

/-- What a power of two leaves of a point of the grid lies on the grid. -/
lemma OnGrid.mod_two_pow {u : Nat} (h : OnGrid u) (j : Nat) : OnGrid (u % 2 ^ j) := by
  obtain ⟨hlt, hdvd⟩ := h
  refine ⟨(Nat.mod_le _ _).trans_lt hlt, ?_⟩
  rcases Nat.le_total (u.log2 - 52) j with hle | hle
  · have hmod : 2 ^ (u.log2 - 52) ∣ u % 2 ^ j :=
      (Nat.dvd_mod_iff (Nat.pow_dvd_pow 2 hle)).mpr hdvd
    have hlog : (u % 2 ^ j).log2 ≤ u.log2 := by
      rw [Nat.log2_eq_log_two, Nat.log2_eq_log_two]
      exact Nat.log_mono_right (Nat.mod_le _ _)
    exact (Nat.pow_dvd_pow 2 (Nat.sub_le_sub_right hlog 52)).trans hmod
  · rw [Nat.mod_eq_zero_of_dvd ((Nat.pow_dvd_pow 2 hle).trans hdvd)]
    exact Nat.dvd_zero _

namespace Binary64

/-- From a half on the grid is no finer than 53 places after the point. -/
lemma two_pow_dvd_of_half_le {u : Nat} (h : OnGrid u) (hu : unitsPerOne ≤ 2 * u) :
    2 ^ (unitBits - 53) ∣ u := by
  have hbits : 53 ≤ unitBits := le_unitBits (by norm_num)
  have hpow : 2 * 2 ^ (unitBits - 1) = unitsPerOne := by
    rw [unitsPerOne_eq, ← Nat.pow_succ']
    congr 1
    omega
  have hne : u ≠ 0 := by
    rintro rfl
    exact absurd hu (by simpa using unitsPerOne_pos.ne')
  have hlog : unitBits - 1 ≤ u.log2 := (Nat.le_log2 hne).mpr (by omega)
  exact (Nat.pow_dvd_pow 2 (by omega)).trans h.2

/-- A part of one that is not divided finer than 53 times is a number of the format. -/
lemma representable_of_two_pow_dvd {r : Nat} (hr : r ≤ unitsPerOne)
    (h : 2 ^ (unitBits - 53) ∣ r) : Representable ((r : ℚ) / unitsPerOne) := by
  obtain ⟨m, rfl⟩ := h
  have hbits : 53 ≤ unitBits := le_unitBits (by norm_num)
  have hpow : 2 ^ (unitBits - 53) * 2 ^ (53 : Nat) = unitsPerOne := by
    rw [unitsPerOne_eq, ← Nat.pow_add, Nat.sub_add_cancel hbits]
  have hm : m ≤ 2 ^ (53 : Nat) := by
    rw [← hpow] at hr
    exact Nat.le_of_mul_le_mul_left hr (Nat.two_pow_pos _)
  have hvalue : ((2 ^ (unitBits - 53) * m : Nat) : ℚ) / unitsPerOne = (m : ℚ) / 2 ^ 53 := by
    rw [← hpow]
    push_cast
    field_simp
    norm_num
  rw [hvalue]
  exact representable_div_pow hm hbits

variable {negative : Bool} {units : Nat} {hgrid : OnGrid units}

lemma floorUnits_mul_le (negative : Bool) (units : Nat) :
    floorUnits negative units * unitsPerOne ≤ signed negative units :=
  Int.ediv_mul_le _ (by exact_mod_cast unitsPerOne_pos.ne')

lemma lt_floorUnits_add_one_mul (negative : Bool) (units : Nat) :
    signed negative units < (floorUnits negative units + 1) * unitsPerOne :=
  Int.lt_ediv_add_one_mul_self _ (by exact_mod_cast unitsPerOne_pos)

/-- A number of 53 bits before the point has nothing behind it. -/
lemma floorUnits_eq_value (negative : Bool) (h : OnGrid units)
    (hge : 2 ^ (53 : Nat) * unitsPerOne ≤ units) :
    (floorUnits negative units : ℚ) = value (.finite negative units h) := by
  have hne : units ≠ 0 := by
    rintro rfl
    exact absurd hge (by simpa using unitsPerOne_pos.ne')
  have hlog : unitBits + 53 ≤ units.log2 := by
    refine (Nat.le_log2 hne).mpr ?_
    rw [Nat.pow_add, Nat.mul_comm, ← unitsPerOne_eq]
    exact hge
  have hdvd : unitsPerOne ∣ units := by
    rw [unitsPerOne_eq]
    exact (Nat.pow_dvd_pow 2 (by omega)).trans h.2
  have hsigned : (unitsPerOne : ℤ) ∣ signed negative units := by
    cases negative
    · exact Int.natCast_dvd_natCast.mpr hdvd
    · exact (Int.natCast_dvd_natCast.mpr hdvd).neg_right
  rw [value, eq_div_iff unitsPerOne_cast_pos.ne']
  exact_mod_cast Int.ediv_mul_cancel hsigned

/-- An integer of any size that is rounded to a number of the format is rounded to an integer. -/
lemma exists_int_value_ofInt {n : ℤ} (hn : (ofInt n).isFinite = true) :
    ∃ m : ℤ, (ofInt n).value = m := by
  rcases Nat.le_total n.natAbs (2 ^ (53 : Nat)) with hsmall | hlarge
  · exact ⟨n, (value_ofInt hsmall).2⟩
  · have hvalue : (2 : ℚ) ^ (53 : Nat) ≤ |(ofInt n).value| := by
      have hbound : ((2 ^ (53 : Nat) : ℤ)).natAbs ≤ 2 ^ (53 : Nat) := le_rfl
      rcases le_total 0 n with hpos | hneg
      · have hle := le_value_ofInt hbound (by omega : (2 ^ (53 : Nat) : ℤ) ≤ n) hn
        exact (by exact_mod_cast hle : (2 : ℚ) ^ (53 : Nat) ≤ _).trans (le_abs_self _)
      · have hle := value_ofInt_le (by rwa [Int.natAbs_neg])
          (by omega : n ≤ -(2 ^ (53 : Nat) : ℤ)) hn
        push_cast at hle
        exact (le_neg.mpr hle).trans (neg_le_abs _)
    obtain ⟨negative, units, hgrid, hfinite⟩ := exists_finite hn
    rw [hfinite] at hvalue ⊢
    refine ⟨floorUnits negative units, (floorUnits_eq_value negative hgrid ?_).symm⟩
    rw [value, abs_div, abs_signed, abs_of_pos unitsPerOne_cast_pos,
      le_div_iff₀ unitsPerOne_cast_pos] at hvalue
    exact_mod_cast hvalue

/-- The integer below a number is a number of the format: it has at most 53 bits, or the number is
an integer itself. -/
lemma representable_floor (h : OnGrid units) :
    Representable (floorUnits negative units : ℚ) := by
  rcases Nat.lt_or_ge units (2 ^ (53 : Nat) * unitsPerOne) with hlt | hge
  · refine representable_intCast ?_
    have hle := floorUnits_mul_le negative units
    have hlt' := lt_floorUnits_add_one_mul negative units
    have hU : (0 : ℤ) < unitsPerOne := by exact_mod_cast unitsPerOne_pos
    have hsigned : -((2 ^ (53 : Nat) : ℤ) * unitsPerOne) < signed negative units
        ∧ signed negative units < 2 ^ (53 : Nat) * unitsPerOne := by
      have hcast : (units : ℤ) < 2 ^ (53 : Nat) * unitsPerOne := by exact_mod_cast hlt
      cases negative <;> simp only [signed_false, signed_true] <;> constructor <;> omega
    have hlow : -(2 ^ (53 : Nat) : ℤ) < floorUnits negative units + 1 := by
      refine lt_of_mul_lt_mul_right ?_ hU.le
      calc -(2 ^ (53 : Nat) : ℤ) * unitsPerOne < signed negative units := by
            rw [neg_mul]
            exact hsigned.1
        _ < _ := hlt'
    have hhigh : floorUnits negative units < (2 ^ (53 : Nat) : ℤ) :=
      lt_of_mul_lt_mul_right (hle.trans_lt hsigned.2) hU.le
    norm_num at hlow hhigh ⊢
    omega
  · -- the number is an integer
    rw [floorUnits_eq_value negative h hge]
    exact representable_value _

/-- The fraction of a number, which is at least zero and below one. -/
lemma value_sub_floor_mem (negative : Bool) {units : Nat} (hgrid : OnGrid units) :
    0 ≤ value (.finite negative units hgrid) - floorUnits negative units
      ∧ value (.finite negative units hgrid) - floorUnits negative units < 1 := by
  have hU := unitsPerOne_cast_pos
  have hle : (floorUnits negative units : ℚ) * unitsPerOne ≤ signed negative units := by
    exact_mod_cast floorUnits_mul_le negative units
  have hlt : (signed negative units : ℚ) < (floorUnits negative units + 1) * unitsPerOne := by
    exact_mod_cast lt_floorUnits_add_one_mul negative units
  rw [value]
  constructor
  · rw [sub_nonneg, le_div_iff₀ hU]
    exact hle
  · rw [sub_lt_iff_lt_add', div_lt_iff₀ hU, add_comm]
    linarith

/-- A fraction below a half is a number of the format. -/
lemma representable_fraction
    (hhalf : value (.finite negative units hgrid) - floorUnits negative units < 1 / 2) :
    Representable (value (.finite negative units hgrid) - floorUnits negative units) := by
  have hU := unitsPerOne_cast_pos
  have hUz : (0 : ℤ) < unitsPerOne := by exact_mod_cast unitsPerOne_pos
  obtain ⟨r, hr⟩ := Int.eq_ofNat_of_zero_le (Int.emod_nonneg (signed negative units) hUz.ne')
  have hdivmod : signed negative units = floorUnits negative units * unitsPerOne + r := by
    rw [← hr, floorUnits, Int.ediv_mul_add_emod]
  have hvalue : value (.finite negative units hgrid) - floorUnits negative units
      = (r : ℚ) / unitsPerOne := by
    have hcast : (signed negative units : ℚ) = floorUnits negative units * unitsPerOne + r := by
      exact_mod_cast hdivmod
    rw [value, hcast]
    field_simp
    ring
  have hrlt : r < unitsPerOne := by
    have := Int.emod_lt_of_pos (signed negative units) hUz
    omega
  rw [hvalue] at hhalf ⊢
  rcases Nat.lt_or_ge (2 * units) unitsPerOne with hsmall | hlarge
  · cases negative with
    | false =>
        -- the number is its own fraction
        have hself : r = units := by
          rw [signed_false, Int.emod_eq_of_lt (by omega) (by omega)] at hr
          omega
        rw [hself]
        exact ⟨units, hgrid, abs_of_nonneg (by positivity)⟩
    | true =>
        rcases Nat.eq_zero_or_pos units with hzero | hpos
        · have hr0 : r = 0 := by
            rw [hzero, signed_true, Nat.cast_zero, neg_zero, Int.zero_emod] at hr
            omega
          rw [hr0, Nat.cast_zero, zero_div]
          exact_mod_cast representable_natCast (n := 0) (by norm_num)
        · -- the fraction is what a small number leaves of one
          have hrest : r = unitsPerOne - units := by
            rw [signed_true, ← Int.add_emod_right,
              Int.emod_eq_of_lt (by omega) (by omega)] at hr
            omega
          rw [div_lt_div_iff₀ hU two_pos, one_mul] at hhalf
          have : r * 2 < unitsPerOne := by exact_mod_cast hhalf
          omega
  · refine representable_of_two_pow_dvd hrlt.le ?_
    have hpow : 2 ^ (unitBits - 53) ∣ unitsPerOne := by
      rw [unitsPerOne_eq]
      exact Nat.pow_dvd_pow 2 (Nat.sub_le _ _)
    have hdvd : ((2 ^ (unitBits - 53) : Nat) : ℤ) ∣ signed negative units := by
      have := Int.natCast_dvd_natCast.mpr (two_pow_dvd_of_half_le hgrid hlarge)
      cases negative
      · exact this
      · exact this.neg_right
    have hfloor : ((2 ^ (unitBits - 53) : Nat) : ℤ) ∣ floorUnits negative units * unitsPerOne :=
      (Int.natCast_dvd_natCast.mpr hpow).mul_left _
    have hrest : (r : ℤ) = signed negative units - floorUnits negative units * unitsPerOne := by
      omega
    exact Int.natCast_dvd_natCast.mp (hrest ▸ dvd_sub hdvd hfloor)

/-- The rounded fraction is at least a half just if the exact one is. -/
lemma half_le_fraction_iff :
    (0.5 : Binary64) ≤ .finite negative units hgrid - ofInt (floorUnits negative units)
      ↔ 1 / 2 ≤ value (.finite negative units hgrid) - floorUnits negative units := by
  obtain ⟨hfloorf, hfloor⟩ :=
    (isRounded_ofInt (floorUnits negative units)).exact (representable_floor hgrid)
  have hsub := isRounded_sub (x := .finite negative units hgrid) rfl hfloorf
  rw [hfloor] at hsub
  obtain ⟨hlow, hhigh⟩ := value_sub_floor_mem negative hgrid
  have hbetween := hsub.between (representable_natCast (n := 0) (by norm_num)) representable_one
    (by exact_mod_cast hlow) hhigh.le
  rw [le_iff value_half.1 hbetween.isFinite, value_half.2]
  constructor
  · intro h
    by_contra hlt
    rw [not_le] at hlt
    rw [(hsub.exact (representable_fraction hlt)).2] at h
    exact absurd h (not_le.mpr hlt)
  · intro h
    have hrepresentable : Representable (1 / 2) := by
      simpa using representable_two_pow_inv (k := 1) (by norm_num)
    exact (hsub.between hrepresentable representable_one h hhigh.le).le_value

/-- The nearest integer to a finite number is at most a half away, and a half goes up. -/
theorem exists_nearest_int {x : Binary64} (hx : x.isFinite = true) :
    ∃ n : ℤ, x.roundHalfUp = .ok n ∧ (n : ℚ) - 1 / 2 ≤ x.value ∧ x.value < n + 1 / 2 := by
  obtain ⟨negative, units, hgrid, rfl⟩ := exists_finite hx
  obtain ⟨hlow, hhigh⟩ := value_sub_floor_mem negative hgrid
  refine ⟨_, rfl, ?_⟩
  split_ifs with hhalf <;> rw [half_le_fraction_iff] at hhalf
  · push_cast
    constructor <;> linarith
  · rw [not_le] at hhalf
    constructor <;> linarith

/-- The remainder of a division by two of a number that is not negative is exact. -/
lemma value_remainderTwo (h : OnGrid units) :
    (remainderTwo (.finite false units h)).isFinite = true ∧
      (remainderTwo (.finite false units h)).value
        = value (.finite false units h) - 2 * (units / (2 * unitsPerOne) : Nat) := by
  have hU := unitsPerOne_cast_pos
  have hpow : 2 * unitsPerOne = 2 ^ (unitBits + 1) := by rw [unitsPerOne_eq, Nat.pow_succ']
  have hrest : OnGrid (units % (2 * unitsPerOne)) := by
    rw [hpow]
    exact h.mod_two_pow _
  have hdivmod : (units : ℚ) = 2 * unitsPerOne * (units / (2 * unitsPerOne) : Nat)
      + (units % (2 * unitsPerOne) : Nat) := by
    exact_mod_cast (Nat.div_add_mod units (2 * unitsPerOne)).symm
  have hvalue : value (.finite false units h) - 2 * (units / (2 * unitsPerOne) : Nat)
      = ((units % (2 * unitsPerOne) : Nat) : ℚ) / unitsPerOne := by
    rw [value, signed_false, Int.cast_natCast]
    nth_rewrite 1 [hdivmod]
    field_simp
    ring
  rw [hvalue, remainderTwo]
  simp only [Bool.false_eq_true, if_false]
  split_ifs with hzero
  · rw [hzero]
    simp
  · have hround := isRounded_round false (units % (2 * unitsPerOne)) Nat.one_pos
    rw [signed_false, Int.cast_natCast, Nat.cast_one, div_one] at hround
    exact hround.exact ⟨_, hrest, abs_of_nonneg (by positivity)⟩

end Binary64

end Swatch
