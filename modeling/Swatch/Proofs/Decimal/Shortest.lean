import Swatch.Proofs.Binary64.Error
import Swatch.Proofs.Decimal.Places
/-!
The shortest text of a number of hundredths.

* `Decimal.decade_eq`: where the leading digit of a number of units stands.
* `Decimal.exists_neighbours`: of the multiples of a power of ten next to a number of units, a near
  one comes first.
* `Decimal.units_hundredths_inj`: different numbers of hundredths are rounded to different numbers.
* `Decimal.shortest_hundredths`: so no decimal of fewer digits is rounded to the same number.
* `plainText_hundredths`: a number of hundredths is shown without zeros at the end.
-/

namespace Swatch

namespace Decimal

/-! ### The leading digit and the neighbours -/

/-- The leading digit stands so many places after the point if the number lies between the units of
that place and of the one before. -/
lemma decade_eq {u : Nat} (places : Nat) (hplaces : places ≤ leadingPlaces)
    (hlow : unitsPerOne ≤ u * 10 ^ places) (hhigh : u * 10 ^ places < 10 * unitsPerOne) :
    decade u = -(places : ℤ) := by
  obtain ⟨k, hk⟩ := Nat.exists_eq_add_of_le hplaces
  have hscale : u * 10 ^ leadingPlaces = u * 10 ^ places * 10 ^ k := by
    rw [hk, Nat.pow_add, Nat.mul_assoc]
  have hle : 10 ^ k ≤ u * 10 ^ leadingPlaces / unitsPerOne := by
    rw [Nat.le_div_iff_mul_le unitsPerOne_pos, hscale, Nat.mul_comm]
    exact Nat.mul_le_mul_right _ hlow
  have hlt : u * 10 ^ leadingPlaces / unitsPerOne < 10 ^ (k + 1) := by
    rw [Nat.div_lt_iff_lt_mul unitsPerOne_pos, hscale, Nat.pow_succ, Nat.mul_assoc (10 ^ k),
      Nat.mul_comm (10 ^ k)]
    exact Nat.mul_lt_mul_of_pos_right hhigh (Nat.pow_pos (by norm_num))
  have hupper : (digitsOf (u * 10 ^ leadingPlaces / unitsPerOne)).length ≤ k + 1 :=
    (Nat.length_toDigits_le_iff (by norm_num) k.succ_pos).mpr hlt
  have hlower : k < (digitsOf (u * 10 ^ leadingPlaces / unitsPerOne)).length :=
    (Nat.pow_lt_pow_iff_right (by norm_num)).mp (hle.trans_lt (lt_ten_pow_length _))
  rw [decade]
  omega

/-- A multiple of a power of ten that is nearer than half of it comes first. -/
lemma exists_neighbours {u m : Nat} (places : Nat)
    (h : |(u : ℚ) * 10 ^ places - m * unitsPerOne| < unitsPerOne / 2) :
    ∃ rest, neighbours u (-places) = ⟨m, -places⟩ :: rest := by
  obtain ⟨habove, hbelow⟩ := abs_lt.mp h
  have hlow : 2 * (m * unitsPerOne) < 2 * (u * 10 ^ places) + unitsPerOne := by
    have : (2 : ℚ) * (m * unitsPerOne) < 2 * (u * 10 ^ places) + unitsPerOne := by linarith
    exact_mod_cast this
  have hhigh : 2 * (u * 10 ^ places) < 2 * (m * unitsPerOne) + unitsPerOne := by
    have : (2 : ℚ) * (u * 10 ^ places) < 2 * (m * unitsPerOne) + unitsPerOne := by linarith
    exact_mod_cast this
  have hup : (-(-(places : ℤ))).toNat = places := by omega
  have hdown : (-(places : ℤ)).toNat = 0 := by omega
  rw [neighbours, hup, hdown, Nat.pow_zero, Nat.mul_one]
  set num := u * 10 ^ places
  set den := unitsPerOne with hden
  have hpos : 0 < den := unitsPerOne_pos
  have hsplit : den * (num / den) + num % den = num := Nat.div_add_mod num den
  have hmod : num % den < den := Nat.mod_lt num hpos
  rcases Nat.lt_or_ge num (m * den) with hbelow | habove
  · have hq : num / den + 1 = m := by
      have hle : num / den < m := (Nat.div_lt_iff_lt_mul hpos).mpr hbelow
      have hge : m ≤ num / den + 1 := by
        by_contra hlt
        have hmul : den * (num / den + 2) ≤ m * den := by
          rw [Nat.mul_comm m]
          exact Nat.mul_le_mul_left den (by omega)
        rw [Nat.mul_add] at hmul
        omega
      omega
    have hmul : m * den = den * (num / den) + den := by
      rw [← hq, Nat.add_mul, Nat.one_mul, Nat.mul_comm]
    have hfar : den < 2 * (num % den) := by omega
    have hsides : (decide (2 * (num % den) < den)
        || (2 * (num % den) == den && num / den % 2 == 0)) = false := by
      rw [decide_eq_false (by omega), beq_eq_false_iff_ne.mpr (by omega)]
      rfl
    simp only [hsides, if_neg (by omega : ¬ num % den = 0), hq]
    exact ⟨_, rfl⟩
  · have hq : num / den = m := by
      refine Nat.div_eq_of_lt_le habove ?_
      rw [Nat.add_mul]
      omega
    rw [hq, Nat.mul_comm] at hsplit
    have hnear : 2 * (num % den) < den := by omega
    by_cases hzero : num % den = 0
    · simp only [if_pos hzero, hq]
      exact ⟨_, rfl⟩
    · simp only [if_neg hzero, decide_eq_true hnear, Bool.true_or, if_true, hq]
      exact ⟨_, rfl⟩

lemma exponent_of_mem_neighbours {u : Nat} {e : ℤ} {d : Decimal} (h : d ∈ neighbours u e) :
    d.exponent = e := by
  rw [neighbours] at h
  split_ifs at h <;> simp only [List.mem_cons, List.not_mem_nil, or_false] at h
  · rw [h]
  · rcases h with rfl | rfl <;> rfl
  · rcases h with rfl | rfl <;> rfl

/-! ### Numbers of hundredths -/

lemma units_hundredths (n : Nat) :
    (⟨n, -2⟩ : Decimal).units = roundUnits (n * unitsPerOne) 100 := by
  show roundUnits (n * 1 * unitsPerOne) 100 = _
  rw [Nat.mul_one]

lemma units_tenths (n : Nat) : (⟨n, -1⟩ : Decimal).units = (⟨n * 10, -2⟩ : Decimal).units := by
  have hexponent : (-2 : ℤ) + 1 = -1 := rfl
  rw [units_mul_ten, hexponent]

/-- A number of hundredths is rounded by less than a hundredth of a hundredth. -/
lemma abs_units_hundredths_sub_lt {n : Nat} (hn : n ≤ 1000) :
    |((⟨n, -2⟩ : Decimal).units : ℚ) * 100 - n * unitsPerOne| < unitsPerOne / 100 := by
  have hU := two_pow_le_unitsPerOne
  have herror := abs_roundUnits_sub_le (n * unitsPerOne) (by norm_num : 0 < 100)
  have hnq : (n : ℚ) ≤ 1000 := by exact_mod_cast hn
  have hscaled : ((⟨n, -2⟩ : Decimal).units : ℚ) * 100 - n * unitsPerOne
      = 100 * ((roundUnits (n * unitsPerOne) 100 : ℚ) - (n * unitsPerOne : Nat) / (100 : Nat)) := by
    rw [units_hundredths]
    push_cast
    ring
  have hsize : ((n * unitsPerOne : Nat) : ℚ) / (100 : Nat) / 2 ^ 52 ≤ unitsPerOne / 2 ^ 48 := by
    push_cast
    rw [div_div, div_le_div_iff₀ (by positivity) (by positivity)]
    nlinarith
  rw [hscaled, abs_mul, abs_of_pos (by norm_num : (0 : ℚ) < 100)]
  calc 100 * |(roundUnits (n * unitsPerOne) 100 : ℚ) - (n * unitsPerOne : Nat) / (100 : Nat)|
      ≤ 100 * ((1 + unitsPerOne / 2 ^ 48) / 2) := by linarith
    _ < unitsPerOne / 100 := by linarith

/-- More hundredths are rounded to more units. -/
lemma units_hundredths_lt {m n : Nat} (h : m < n) (hn : n ≤ 1000) :
    (⟨m, -2⟩ : Decimal).units < (⟨n, -2⟩ : Decimal).units := by
  have hm := abs_lt.mp (abs_units_hundredths_sub_lt (h.le.trans hn))
  have hn' := abs_lt.mp (abs_units_hundredths_sub_lt hn)
  have hstep : (m : ℚ) * unitsPerOne + unitsPerOne ≤ n * unitsPerOne := by
    have hle : (m : ℚ) + 1 ≤ n := by exact_mod_cast h
    have := mul_le_mul_of_nonneg_right hle unitsPerOne_cast_pos.le
    linarith
  have hlt : ((⟨m, -2⟩ : Decimal).units : ℚ) < (⟨n, -2⟩ : Decimal).units := by
    linarith [unitsPerOne_cast_pos]
  exact_mod_cast hlt

/-- Different numbers of hundredths are rounded to different numbers. -/
lemma units_hundredths_inj {m n : Nat} (hn : n < 1000)
    (h : (⟨m, -2⟩ : Decimal).units = (⟨n, -2⟩ : Decimal).units) : m = n := by
  rcases lt_trichotomy m n with hlt | heq | hgt
  · exact absurd h (units_hundredths_lt hlt hn.le).ne
  · exact heq
  · have hnext := units_hundredths_lt n.lt_succ_self hn
    have hmono : (⟨n + 1, -2⟩ : Decimal).units ≤ (⟨m, -2⟩ : Decimal).units := by
      rw [units_hundredths, units_hundredths]
      exact roundUnits_mono 100 (Nat.mul_le_mul_right _ hgt)
    exact absurd h (hnext.trans_le hmono).ne'

/-! ### Their shortest decimals -/

/-- A number of hundredths is the nearest multiple of a hundredth to what it is rounded to. -/
lemma exists_neighbours_hundredths {n : Nat} (hn : n ≤ 1000) :
    ∃ rest, neighbours (⟨n, -2⟩ : Decimal).units (-2) = ⟨n, -2⟩ :: rest := by
  have hnear := abs_units_hundredths_sub_lt hn
  have hsquare : (10 : ℚ) ^ 2 = 100 := by norm_num
  exact exists_neighbours 2 (by rw [hsquare]; linarith [unitsPerOne_cast_pos])

lemma exists_neighbours_tenths {n : Nat} (hn : n ≤ 100) :
    ∃ rest, neighbours (⟨n, -1⟩ : Decimal).units (-1) = ⟨n, -1⟩ :: rest := by
  have hnear := abs_lt.mp (abs_units_hundredths_sub_lt (by omega : n * 10 ≤ 1000))
  rw [Nat.cast_mul, Nat.cast_ofNat, ← units_tenths] at hnear
  refine exists_neighbours 1 (abs_lt.mpr ⟨?_, ?_⟩)
  · linarith [unitsPerOne_cast_pos]
  · linarith [unitsPerOne_cast_pos]

lemma units_hundredths_mono {m n : Nat} (h : m ≤ n) :
    (⟨m, -2⟩ : Decimal).units ≤ (⟨n, -2⟩ : Decimal).units := by
  rw [units_hundredths, units_hundredths]
  exact roundUnits_mono 100 (Nat.mul_le_mul_right _ h)

/-- A hundredth and a tenth are rounded up, so that their leading digits stay in place. -/
lemma hundredth_and_tenth_le :
    unitsPerOne ≤ (⟨1, -2⟩ : Decimal).units * 10 ^ 2 ∧
      unitsPerOne ≤ (⟨10, -2⟩ : Decimal).units * 10 ^ 1 := by
  decide +kernel

lemma units_hundredths_lt_of_lt {k n : Nat} (hk : k ≤ 1000) (h : n < k) :
    (⟨n, -2⟩ : Decimal).units * 100 < k * unitsPerOne := by
  have hnear := abs_lt.mp (abs_units_hundredths_sub_lt (h.le.trans hk))
  have hle : (n : ℚ) + 1 ≤ k := by exact_mod_cast h
  have hmul := mul_le_mul_of_nonneg_right hle unitsPerOne_cast_pos.le
  have hlt : ((⟨n, -2⟩ : Decimal).units : ℚ) * 100 < k * unitsPerOne := by
    linarith [unitsPerOne_cast_pos]
  exact_mod_cast hlt

/-- The leading digit of a number of hundredths. -/
lemma decade_hundredths {n : Nat} (hpos : 0 < n) (hn : n < 100) :
    decade (⟨n, -2⟩ : Decimal).units = if n < 10 then -2 else -1 := by
  obtain ⟨hhundredth, htenth⟩ := hundredth_and_tenth_le
  split_ifs with hten
  · refine decade_eq 2 (by decide) (hhundredth.trans ?_) ?_
    · exact Nat.mul_le_mul_right _ (units_hundredths_mono hpos)
    · exact units_hundredths_lt_of_lt (by norm_num) hten
  · refine decade_eq 1 (by decide) (htenth.trans ?_) ?_
    · exact Nat.mul_le_mul_right _ (units_hundredths_mono (not_lt.mp hten))
    · have hlt := units_hundredths_lt_of_lt (by norm_num) hn
      omega

/-- The first of the neighbours is found if it is rounded to the number. -/
lemma find?_neighbours {u m : Nat} {e : ℤ} {rest : List Decimal}
    (h : neighbours u e = ⟨m, e⟩ :: rest) (hunits : (⟨m, e⟩ : Decimal).units = u) :
    (neighbours u e).find? (·.units == u) = some ⟨m, e⟩ := by
  rw [h]
  exact List.find?_cons_of_pos (beq_iff_eq.mpr hunits)

/-- No number of tenths is rounded to the same number, unless it is the same number. -/
lemma find?_neighbours_eq_none {u n : Nat} (hn : n < 1000) (hdigit : n % 10 ≠ 0)
    (hunits : (⟨n, -2⟩ : Decimal).units = u) :
    (neighbours u (-1)).find? (·.units == u) = none := by
  rw [List.find?_eq_none]
  intro d hd heq
  have hexponent := exponent_of_mem_neighbours hd
  obtain ⟨m, e⟩ := d
  simp only at hexponent
  subst hexponent
  have htenths := (units_tenths m).symm.trans ((beq_iff_eq.mp heq).trans hunits.symm)
  have hsame := units_hundredths_inj hn htenths
  omega

/-- Two digits are enough for a decimal of two digits, and one if it can be written with one. -/
lemma shortest_eq {u : Nat} {d : Decimal} (hlast : d.digits % 10 ≠ 0)
    (h : ofCount? u 1 = some d ∨ ofCount? u 1 = none ∧ ofCount? u 2 = some d) :
    shortest u = d := by
  have hrange : List.range 17 = 0 :: 1 :: (List.range 15).map (· + 2) := by decide
  have hfound : (List.range 17).findSome? (fun n => ofCount? u (n + 1)) = some d := by
    rw [hrange]
    rcases h with hfirst | ⟨hfirst, hsecond⟩
    · simp [hfirst]
    · simp [hfirst, hsecond]
  rw [shortest, hfound, Option.getD_some, trim, dif_pos (Or.inr hlast)]

/-- The shortest decimal of a number of hundredths is that number without zeros at the end. -/
theorem shortest_hundredths {n u : Nat} (hpos : 0 < n) (hn : n < 100)
    (hunits : (⟨n, -2⟩ : Decimal).units = u) :
    shortest u = if n % 10 = 0 then ⟨n / 10, -1⟩ else ⟨n, -2⟩ := by
  have hdecade := decade_hundredths hpos hn
  obtain ⟨rest, hhundredths⟩ := exists_neighbours_hundredths (by omega : n ≤ 1000)
  rw [hunits] at hdecade hhundredths
  split_ifs with hdigit
  · -- the number of tenths is found at once
    rw [if_neg (by omega)] at hdecade
    obtain ⟨rest', htenths⟩ := exists_neighbours_tenths (by omega : n / 10 ≤ 100)
    have hsame : (⟨n / 10, -1⟩ : Decimal).units = u := by
      rw [units_tenths, Nat.div_mul_cancel (Nat.dvd_of_mod_eq_zero hdigit), hunits]
    rw [hsame] at htenths
    have hten : n / 10 % 10 ≠ 0 := by omega
    refine shortest_eq hten (Or.inl ?_)
    rw [ofCount?, hdecade]
    exact find?_neighbours htenths hsame
  · refine shortest_eq hdigit ?_
    by_cases hten : n < 10
    · rw [if_pos hten] at hdecade
      refine Or.inl ?_
      rw [ofCount?, hdecade]
      exact find?_neighbours hhundredths hunits
    · rw [if_neg hten] at hdecade
      refine Or.inr ⟨?_, ?_⟩
      · rw [ofCount?, hdecade]
        exact find?_neighbours_eq_none (by omega) hdigit hunits
      · rw [ofCount?, hdecade]
        exact find?_neighbours hhundredths hunits

/-- A number of hundredths is shown without zeros at the end. -/
lemma text_shortest_hundredths {n u : Nat} (hpos : 0 < n) (hn : n < 100)
    (hunits : (⟨n, -2⟩ : Decimal).units = u) : (shortest u).text = hundredthsText n := by
  have htext : ∀ n < 100, 0 < n →
      (if n % 10 = 0 then (⟨n / 10, -1⟩ : Decimal) else ⟨n, -2⟩).text = hundredthsText n := by
    decide
  rw [shortest_hundredths hpos hn hunits]
  exact htext n hn hpos

end Decimal

open Decimal

/-- The number of a number of hundredths. -/
lemma toBinary64_hundredths (n : Nat) :
    (Numeral.decimal false n (-2)).toBinary64 = .round false (n * unitsPerOne) 100 := by
  rw [Numeral.toBinary64_decimal, Binary64.ofScaled]
  show Binary64.round false (n * 1 * unitsPerOne) 100 = _
  rw [Nat.mul_one]

/-- One is a number of units of the format. -/
lemma roundUnits_one : roundUnits (100 * unitsPerOne) 100 = unitsPerOne := by
  have hgrid : OnGrid unitsPerOne := by
    refine ⟨?_, ?_⟩
    · rw [unitsPerOne_eq, unitsBound_eq]
      exact Nat.pow_lt_pow_right (by norm_num) (by omega)
    · rw [unitsPerOne_eq, Nat.log2_two_pow]
      exact Nat.pow_dvd_pow 2 (Nat.sub_le _ _)
  have hscale := roundUnits_mul_right unitsPerOne 1 (by norm_num : 0 < 100)
  rw [Nat.one_mul, Nat.mul_comm] at hscale
  exact hscale.trans (roundUnits_of_onGrid hgrid)

/-- A positive number is shown in full if it is an integer, and as its shortest decimal if not. -/
lemma plainText_round {num den u : Nat} (hunits : roundUnits num den = u) (hu : u < unitsBound)
    (hpos : 0 < u) : (Binary64.round false num den).plainText
      = .ok (if u % unitsPerOne = 0 then digitsOf (u / unitsPerOne) else (shortest u).text) := by
  subst hunits
  rw [Binary64.round, dif_pos hu]
  show Except.ok (if _ then _ else _) = _
  congr 1
  split_ifs
  · rfl
  · rw [Binary64.text, withSign, if_neg Bool.false_ne_true, if_neg hpos.ne']

/-- A number of hundredths up to one, written with two places, is shown without zeros at the end. -/
theorem plainText_hundredths {n : Nat} (hn : n ≤ 100) :
    (readNumber (scaledText ⟨n, -2⟩) >>= Binary64.plainText) = .ok (hundredthsText n) := by
  have htext : scaledText ⟨n, -2⟩ = pointText 2 n := scaledText_neg (by norm_num) (by norm_num) n
  have hread : readNumber (scaledText ⟨n, -2⟩)
      = .ok (Numeral.decimal false n (-2)).toBinary64 := by
    rw [htext, readNumber, Numeral.read?_pointText]
    rfl
  have hbound : unitsPerOne < unitsBound := by
    rw [unitsPerOne_eq, unitsBound_eq]
    exact Nat.pow_lt_pow_right (by norm_num) (by omega)
  rw [hread]
  show Binary64.plainText _ = _
  rcases Nat.eq_zero_or_pos n with rfl | hpos
  · rw [Numeral.toBinary64, if_pos (by rfl)]
    show Except.ok (if 0 % unitsPerOne = 0
      then integerText (Binary64.signed false (0 / unitsPerOne)) else _) = _
    rw [if_pos (Nat.zero_mod _), Nat.zero_div]
    rfl
  rw [toBinary64_hundredths]
  rcases Nat.lt_or_eq_of_le hn with hlt | rfl
  · -- below one, the number of units is no multiple of those of one
    obtain ⟨u, hunits⟩ : ∃ u, (⟨n, -2⟩ : Decimal).units = u := ⟨_, rfl⟩
    have hbelow : u < unitsPerOne := by
      have := units_hundredths_lt_of_lt (by norm_num) hlt
      omega
    have habove : 0 < u := by
      rw [← hunits]
      exact (Nat.zero_le _).trans_lt (units_hundredths_lt hpos (by omega))
    rw [plainText_round ((units_hundredths n).symm.trans hunits) (hbelow.trans hbound) habove,
      Nat.mod_eq_of_lt hbelow, if_neg habove.ne', text_shortest_hundredths hpos hlt hunits]
  · rw [plainText_round roundUnits_one hbound unitsPerOne_pos, Nat.mod_self, if_pos rfl,
      Nat.div_self unitsPerOne_pos]
    rfl

end Swatch
