import Mathlib.Algebra.Order.Floor.Semifield
import Swatch.Proofs.Binary64.Grid
import Swatch.Proofs.Decimal.Value
/-!
No decimal of fewer digits than the shortest one is rounded to the same number.

Rounding is monotone, so the decimals that are rounded to a number are all that lie between two
bounds, and with a decimal on one side of the number also the multiple of the same power of ten next
to the number on that side.  The search for the shortest decimal looks at just these multiples.

* `Decimal.mem_neighbours_iff`: the neighbours of a number are its floor and its ceiling.
* `Decimal.decade_spec`: where the leading digit of a number stands.
* `Decimal.exists_ofCount?`: a decimal that is rounded to a number is no shorter than one that the
  search comes across.
* `Decimal.isSome_ofCount?_seventeen`: with seventeen digits the search succeeds.
* `Decimal.length_shortest_le`: the shortest decimal has the fewest digits.
-/

namespace Swatch

open Binary64

lemma unitsPerOne_le_ten_pow : unitsPerOne ≤ 10 ^ Decimal.leadingPlaces := by decide +kernel

namespace Decimal

variable {u m count : Nat} {e : ℤ} {d : Decimal}

/-! ### The neighbours of a number -/

/-- The neighbours of a number among the multiples of a power of ten are its floor and its ceiling
there. -/
lemma mem_neighbours_iff : d ∈ neighbours u e ↔
    d = ⟨⌊(u : ℚ) / unitsPerOne / 10 ^ e⌋₊, e⟩ ∨ d = ⟨⌈(u : ℚ) / unitsPerOne / 10 ^ e⌉₊, e⟩ := by
  obtain ⟨num, hnum⟩ : ∃ num, u * 10 ^ (-e).toNat = num := ⟨_, rfl⟩
  obtain ⟨den, hden⟩ : ∃ den, unitsPerOne * 10 ^ e.toNat = den := ⟨_, rfl⟩
  have hpos : 0 < den := hden ▸ Nat.mul_pos unitsPerOne_pos (Nat.pow_pos (by norm_num))
  have hposq : (0 : ℚ) < den := Nat.cast_pos.mpr hpos
  have hquotient : (u : ℚ) / unitsPerOne / 10 ^ e = num / den := by
    rw [ten_zpow_eq_div, ← hnum, ← hden]
    push_cast
    field_simp
  have hsplit : (num : ℚ) = den * (num / den : Nat) + (num % den : Nat) := by
    exact_mod_cast (Nat.div_add_mod num den).symm
  have hfloor : ⌊(num : ℚ) / den⌋₊ = num / den := Nat.floor_div_eq_div num den
  rw [hquotient, hfloor, neighbours, hnum, hden]
  by_cases hzero : num % den = 0
  · have hceil : ⌈(num : ℚ) / den⌉₊ = num / den := by
      rw [hzero, Nat.cast_zero, add_zero] at hsplit
      rw [hsplit, mul_div_cancel_left₀ _ hposq.ne', Nat.ceil_natCast]
    simp [hzero, hceil]
  · have hceil : ⌈(num : ℚ) / den⌉₊ = num / den + 1 := by
      have hrest : (0 : ℚ) < (num % den : Nat) := Nat.cast_pos.mpr (Nat.pos_of_ne_zero hzero)
      have hlt : ((num % den : Nat) : ℚ) < den := Nat.cast_lt.mpr (Nat.mod_lt num hpos)
      rw [Nat.ceil_eq_iff (num / den).add_one_ne_zero, Nat.add_sub_cancel, Nat.cast_add_one,
        lt_div_iff₀ hposq, div_le_iff₀ hposq]
      constructor <;> linarith
    rw [hceil]
    simp only [hzero, if_false]
    split_ifs <;> simp [or_comm]

/-- If a multiple of a power of ten is rounded to a number, so is one of the number's neighbours. -/
lemma exists_mem_neighbours (hu : OnGrid u) (h : (⟨m, e⟩ : Decimal).units = u) :
    ∃ d ∈ neighbours u e, d.units = u := by
  have hpow : (0 : ℚ) < 10 ^ e := by positivity
  rcases le_total ((⟨m, e⟩ : Decimal).toRat) (u / unitsPerOne) with hle | hge
  · refine ⟨_, mem_neighbours_iff.mpr (Or.inl rfl), units_of_between hu h (Or.inl ⟨?_, ?_⟩)⟩
    · refine mul_le_mul_of_nonneg_right (Nat.cast_le.mpr (Nat.le_floor ?_)) hpow.le
      rwa [le_div_iff₀ hpow]
    · rw [toRat, ← le_div_iff₀ hpow]
      exact Nat.floor_le (by have := unitsPerOne_cast_pos; positivity)
  · refine ⟨_, mem_neighbours_iff.mpr (Or.inr rfl), units_of_between hu h (Or.inr ⟨?_, ?_⟩)⟩
    · rw [toRat, ← div_le_iff₀ hpow]
      exact Nat.le_ceil _
    · refine mul_le_mul_of_nonneg_right (Nat.cast_le.mpr (Nat.ceil_le.mpr ?_)) hpow.le
      rwa [div_le_iff₀ hpow]

/-- One of the neighbours of a number is no farther than half of the power of ten. -/
lemma exists_near_mem_neighbours (u : Nat) (e : ℤ) :
    ∃ d ∈ neighbours u e, |(u : ℚ) / unitsPerOne - d.toRat| ≤ 10 ^ e / 2 := by
  have hpow : (0 : ℚ) < 10 ^ e := by positivity
  have hU := unitsPerOne_cast_pos
  obtain ⟨q, hq⟩ : ∃ q, (u : ℚ) / unitsPerOne / 10 ^ e = q := ⟨_, rfl⟩
  have hnonneg : 0 ≤ q := hq ▸ by positivity
  have hscaled (k : Nat) : |(u : ℚ) / unitsPerOne - (⟨k, e⟩ : Decimal).toRat|
      = |q - k| * 10 ^ e := by
    rw [toRat, ← hq, ← abs_of_pos hpow, ← abs_mul, abs_of_pos hpow]
    congr 1
    field_simp
  have hfloor := Nat.floor_le hnonneg
  have hceil := Nat.le_ceil q
  have hstep : (⌈q⌉₊ : ℚ) ≤ ⌊q⌋₊ + 1 := by exact_mod_cast Nat.ceil_le_floor_add_one q
  rcases le_total (q - ⌊q⌋₊) (1 / 2) with hlow | hhigh
  · refine ⟨⟨⌊q⌋₊, e⟩, mem_neighbours_iff.mpr (Or.inl (by rw [hq])), ?_⟩
    rw [hscaled, abs_of_nonneg (by linarith)]
    nlinarith
  · refine ⟨⟨⌈q⌉₊, e⟩, mem_neighbours_iff.mpr (Or.inr (by rw [hq])), ?_⟩
    rw [hscaled, abs_of_nonpos (by linarith)]
    nlinarith

/-! ### The leading digit -/

/-- A number is at least the power of ten at its leading digit and below the next one. -/
lemma decade_spec (hpos : 0 < u) : (10 : ℚ) ^ decade u ≤ u / unitsPerOne ∧
    (u : ℚ) / unitsPerOne < 10 ^ (decade u + 1) := by
  have hU := unitsPerOne_cast_pos
  obtain ⟨n, hn⟩ : ∃ n, u * 10 ^ leadingPlaces / unitsPerOne = n := ⟨_, rfl⟩
  have hone : 0 < n := by
    rw [← hn]
    refine Nat.div_pos (unitsPerOne_le_ten_pow.trans ?_) unitsPerOne_pos
    exact Nat.le_mul_of_pos_left _ hpos
  have hfloor : n = ⌊(u : ℚ) / unitsPerOne * 10 ^ leadingPlaces⌋₊ := by
    rw [← hn, ← Nat.floor_div_eq_div (K := ℚ)]
    push_cast
    congr 1
    ring
  have hscaled : 0 ≤ (u : ℚ) / unitsPerOne * 10 ^ leadingPlaces := by positivity
  have hlow : (10 : ℚ) ^ ((digitsOf n).length - 1) ≤ u / unitsPerOne * 10 ^ leadingPlaces := by
    refine le_trans ?_ (Nat.floor_le hscaled)
    rw [← hfloor]
    exact_mod_cast ten_pow_length_le hone
  have hhigh : (u : ℚ) / unitsPerOne * 10 ^ leadingPlaces < 10 ^ (digitsOf n).length := by
    have hlt := lt_ten_pow_length n
    rw [hfloor, Nat.floor_lt hscaled, ← hfloor] at hlt
    exact_mod_cast hlt
  have hlength : 0 < (digitsOf n).length := Nat.length_toDigits_pos
  have hdecade : decade u = ((digitsOf n).length - 1 : Nat) - (leadingPlaces : ℤ) := by
    rw [decade, hn]
    omega
  have hnext : decade u + 1 = (digitsOf n).length - (leadingPlaces : ℤ) := by omega
  rw [hnext, hdecade, zpow_sub₀ (by norm_num), zpow_sub₀ (by norm_num), zpow_natCast,
    zpow_natCast, zpow_natCast]
  exact ⟨(div_le_iff₀ (by positivity)).mpr hlow, (lt_div_iff₀ (by positivity)).mpr hhigh⟩

/-! ### The search -/

lemma isSome_ofCount?_iff :
    (ofCount? u count).isSome ↔ ∃ d ∈ neighbours u (decade u + 1 - count), d.units = u := by
  rw [ofCount?, List.find?_isSome]
  simp only [beq_iff_eq]

/-- A decimal that is rounded to a number has no fewer digits than one that the search finds.  If it
ends before the search looks for so many digits, then it is below the power of ten at the leading
digit of the number, which is rounded to the number as well. -/
theorem exists_ofCount? (hu : OnGrid u) (hpos : 0 < u) (h : (⟨m, e⟩ : Decimal).units = u) :
    ∃ count, 0 < count ∧ count ≤ (digitsOf m).length ∧ (ofCount? u count).isSome := by
  have hlength : 0 < (digitsOf m).length := Nat.length_toDigits_pos
  rcases le_or_gt (decade u + 1 - (digitsOf m).length) e with hcoarse | hfine
  · refine ⟨(digitsOf m).length, hlength, le_rfl, isSome_ofCount?_iff.mpr ?_⟩
    obtain ⟨k, hk⟩ := Int.eq_ofNat_of_zero_le (sub_nonneg.mpr hcoarse)
    refine exists_mem_neighbours (m := m * 10 ^ k) hu ?_
    rw [units_eq_iff] at h ⊢
    rw [← h]
    congr 1
    rw [toRat, toRat, eq_add_of_sub_eq hk, zpow_add₀ (by norm_num)]
    push_cast
    rw [zpow_natCast, mul_assoc]
  · have hfirst : decade u + 1 - (1 : Nat) = decade u := by omega
    refine ⟨1, one_pos, hlength, isSome_ofCount?_iff.mpr ?_⟩
    rw [hfirst]
    refine exists_mem_neighbours (m := 1) hu (units_of_between hu h (Or.inl ⟨?_, ?_⟩))
    · rw [toRat_one]
      exact (toRat_lt_ten_zpow m e).le.trans (zpow_le_zpow_right₀ (by norm_num) (by omega))
    · rw [toRat_one]
      exact (decade_spec hpos).1

/-- Seventeen digits are enough: they come nearer to a number than half of the distance to any other
one. -/
theorem isSome_ofCount?_seventeen (hu : OnGrid u) (hpos : 0 < u) : (ofCount? u 17).isSome := by
  have hU := unitsPerOne_cast_pos
  obtain ⟨d, hd, hnear⟩ := exists_near_mem_neighbours u (decade u + 1 - (17 : Nat))
  refine isSome_ofCount?_iff.mpr ⟨d, hd, ?_⟩
  have hplace : (10 : ℚ) ^ (decade u + 1 - (17 : Nat)) * 10 ^ 16 ≤ u / unitsPerOne := by
    have hsplit : decade u + 1 - (17 : Nat) = decade u - (16 : Nat) := by omega
    rw [hsplit, zpow_sub₀ (by norm_num), zpow_natCast, div_mul_cancel₀ _ (by positivity)]
    exact (decade_spec hpos).1
  have hscaled : |(u : ℚ) / unitsPerOne - d.toRat| * unitsPerOne
      = |(u : ℚ) - d.toRat * unitsPerOne| := by
    rw [← abs_of_pos hU, ← abs_mul, abs_of_pos hU, sub_mul, div_mul_cancel₀ _ hU.ne']
  have hquotient : d.toRat * unitsPerOne
      = ((d.digits * 10 ^ d.exponent.toNat * unitsPerOne : Nat) : ℚ)
        / (10 ^ (-d.exponent).toNat : Nat) := by
    rw [toRat, ten_zpow_eq_div]
    push_cast
    field_simp
  have hmul := mul_le_mul_of_nonneg_right hnear hU.le
  rw [le_div_iff₀ hU] at hplace
  rw [hscaled, hquotient] at hmul
  generalize (10 : ℚ) ^ (decade u + 1 - (17 : Nat)) = place at hplace hmul
  refine roundUnits_eq_of_near (Nat.pow_pos (by norm_num)) hu.2 ?_
  linarith

/-- The digits of a neighbour are as many as were asked for, unless it is a power of ten. -/
lemma digits_le_of_mem_neighbours (hpos : 0 < u)
    (hd : d ∈ neighbours u (decade u + 1 - count)) : d.digits ≤ 10 ^ count := by
  have hbound : (u : ℚ) / unitsPerOne / 10 ^ (decade u + 1 - count) ≤ (10 ^ count : Nat) := by
    rw [div_le_iff₀ (by positivity)]
    push_cast
    rw [← zpow_natCast, ← zpow_add₀ (by norm_num), add_sub_cancel]
    exact (decade_spec hpos).2.le
  rcases mem_neighbours_iff.mp hd with rfl | rfl
  · exact Nat.floor_le_of_le hbound
  · exact Nat.ceil_le.mpr hbound

/-! ### Zeros at the end -/

/-- The zeros at the end of a decimal make up a power of ten. -/
lemma exists_trim (d : Decimal) : ∃ k, d.digits = (trim d).digits * 10 ^ k ∧
    ((trim d).digits = 0 ∨ (trim d).digits % 10 ≠ 0) := by
  fun_induction trim d with
  | case1 d h => exact ⟨0, by rw [Nat.pow_zero, Nat.mul_one], h⟩
  | case2 d h ih =>
      obtain ⟨k, hk, hlast⟩ := ih
      refine ⟨k + 1, ?_, hlast⟩
      rw [Nat.pow_succ, ← Nat.mul_assoc, ← hk]
      simp only
      omega

/-- A decimal that is not above a power of ten has fewer digits than that without its zeros. -/
lemma length_trim_le (hcount : 0 < count) (hd : d.digits ≤ 10 ^ count) :
    (digitsOf (trim d).digits).length ≤ count := by
  refine (Nat.length_toDigits_le_iff (by norm_num) hcount).mpr ?_
  obtain ⟨k, hk, hlast⟩ := exists_trim d
  rcases Nat.eq_zero_or_pos k with rfl | hpos
  · rw [Nat.pow_zero, Nat.mul_one] at hk
    refine lt_of_le_of_ne (hk ▸ hd) fun heq => ?_
    -- a power of ten ends with a zero
    obtain ⟨c, rfl⟩ := Nat.exists_eq_add_of_lt hcount
    rw [heq, Nat.zero_add, Nat.pow_succ] at hlast
    have hpow : 0 < 10 ^ c := Nat.pow_pos (by norm_num)
    omega
  · obtain ⟨c, rfl⟩ := Nat.exists_eq_add_of_lt hcount
    obtain ⟨l, rfl⟩ := Nat.exists_eq_add_of_lt hpos
    rw [hk, Nat.zero_add, Nat.zero_add, Nat.pow_succ, Nat.pow_succ, ← Nat.mul_assoc] at hd
    have hten : (trim d).digits ≤ (trim d).digits * 10 ^ l :=
      Nat.le_mul_of_pos_right _ (Nat.pow_pos (by norm_num))
    have hpow : 0 < 10 ^ c := Nat.pow_pos (by norm_num)
    rw [Nat.zero_add, Nat.pow_succ]
    omega

/-! ### The shortest decimal -/

/-- The search stops at the first count of digits with which it succeeds. -/
lemma exists_shortest (hu : OnGrid u) (hpos : 0 < u) : ∃ count d, 0 < count ∧
    ofCount? u count = some d ∧ shortest u = trim d ∧
      ∀ c, 0 < c → (ofCount? u c).isSome → count ≤ c := by
  cases hsearch : (List.range 17).findSome? fun n => ofCount? u (n + 1) with
  | none =>
      have hnone := List.findSome?_eq_none_iff.mp hsearch 16 (by decide)
      exact absurd (isSome_ofCount?_seventeen hu hpos) (by rw [hnone]; simp)
  | some d =>
      have hshortest : shortest u = trim d := by rw [shortest, hsearch, Option.getD_some]
      obtain ⟨before, n, after, hrange, hfound, hnone⟩ := List.findSome?_eq_some_iff.mp hsearch
      refine ⟨n + 1, d, n.succ_pos, hfound, hshortest, fun c hc hsome => ?_⟩
      by_contra hlt
      -- a smaller count was looked at before, without success
      have hsorted : (before ++ n :: after).Pairwise (· < ·) := hrange ▸ List.pairwise_lt_range
      have hlater := (List.pairwise_cons.mp (List.pairwise_append.mp hsorted).2.1).1
      have hn : n ∈ List.range 17 := by rw [hrange]; simp
      have hmem : c - 1 ∈ List.range 17 :=
        List.mem_range.mpr (lt_trans (by omega) (List.mem_range.mp hn))
      rw [hrange, List.mem_append, List.mem_cons] at hmem
      rcases hmem with hbefore | heq | hafter
      · rw [← Nat.succ_pred_eq_of_pos hc, Nat.pred_eq_sub_one, Nat.succ_eq_add_one,
          hnone _ hbefore] at hsome
        exact absurd hsome (by simp)
      · omega
      · have := hlater _ hafter
        omega

/-- **The shortest decimal has the fewest digits** of all that are rounded to a number. -/
theorem length_shortest_le (hu : OnGrid u) (hpos : 0 < u) (h : (⟨m, e⟩ : Decimal).units = u) :
    (digitsOf (shortest u).digits).length ≤ (digitsOf m).length := by
  obtain ⟨count, d, hcount, hd, hshortest, hfirst⟩ := exists_shortest hu hpos
  obtain ⟨c, hc, hle, hfound⟩ := exists_ofCount? hu hpos h
  rw [hshortest]
  calc (digitsOf (trim d).digits).length ≤ count :=
        length_trim_le hcount (digits_le_of_mem_neighbours hpos (List.mem_of_find?_eq_some hd))
    _ ≤ c := hfirst c hc hfound
    _ ≤ _ := hle

end Decimal

end Swatch
