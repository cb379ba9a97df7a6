import Swatch.Proofs.Decimal.Fewest
import Swatch.Proofs.Decimal.Written
/-!
The text of a number as a colour shows it reads back to the number.

A number is an integer just if its units are a multiple of those of one.  Then the text is that
integer, which is written without rounding.  Any other number has a shortest decimal with a
fraction, for a decimal without one is an integer and is rounded to an integer; its text holds a
point or an exponent, and no numeral of fewer digits is read as the number.

* `IsCanonicalInteger`: integers as they are written.
* `Numeral.significantDigits`: how many digits a numeral has.
* `Binary64.exists_int_value_iff`: which numbers are integers.
* `Decimal.dvd_of_exponent_nonneg`: a decimal without a fraction is rounded to an integer.
* `Binary64.plainText_spec`: the text of a finite number.
-/

namespace Swatch

open Binary64 Decimal Parts

/-! ### Integers as they are written -/

/-- Digits that begin with a zero only if they are that zero alone, with a minus sign in front or
none, but not in front of the zero. -/
inductive IsCanonicalInteger : Text → Prop where
  | zero : IsCanonicalInteger ['0']
  | positive {digits : Text} (h : IsRun Char.isDigit digits) (hfirst : digits.head? ≠ some '0') :
      IsCanonicalInteger digits
  | negative {digits : Text} (h : IsRun Char.isDigit digits) (hfirst : digits.head? ≠ some '0') :
      IsCanonicalInteger ('-' :: digits)

/-- No character but digits and a minus sign is in an integer. -/
lemma IsCanonicalInteger.notMem {s : Text} (h : IsCanonicalInteger s) {c : Char}
    (hc : c.isDigit = false) (hminus : c ≠ '-') : c ∉ s := by
  cases h with
  | zero =>
      rw [List.mem_singleton]
      rintro rfl
      exact absurd hc (by decide)
  | positive h => exact h.notMem hc
  | negative h =>
      rw [List.mem_cons, not_or]
      exact ⟨hminus, h.notMem hc⟩

/-- The digits of a positive number do not begin with a zero. -/
lemma head?_digitsOf_ne {n : Nat} (hn : 0 < n) : (digitsOf n).head? ≠ some '0' := by
  induction n using Nat.strong_induction_on with
  | _ n ih =>
      rcases Nat.lt_or_ge n 10 with hlt | hge
      · have hone : digitsOf n = [Nat.digitChar n] := Nat.toDigits_of_lt_base hlt
        have hdigit := (digitChar_mod_ten (n := n) (by omega)).1
        rw [Nat.mod_eq_of_lt hlt] at hdigit
        rw [hone]
        exact fun heq => hdigit (Option.some.inj heq)
      · have hsplit : digitsOf n = digitsOf (n / 10) ++ [Nat.digitChar (n % 10)] :=
          Nat.toDigits_of_base_le (by norm_num) hge
        rw [hsplit, List.head?_append_of_ne_nil _ (isRun_digitsOf _).1]
        exact ih (n / 10) (by omega) (by omega)

lemma isCanonicalInteger_integerText (n : ℤ) : IsCanonicalInteger (integerText n) := by
  rw [integerText, withSign]
  split_ifs with hneg
  · rw [decide_eq_true_eq] at hneg
    exact .negative (isRun_digitsOf _) (head?_digitsOf_ne (by omega))
  · rcases Nat.eq_zero_or_pos n.natAbs with hzero | hpos
    · rw [hzero]
      exact .zero
    · exact .positive (isRun_digitsOf _) (head?_digitsOf_ne hpos)

/-- How many digits a numeral has, zeros in front left out.  The words have none. -/
def Numeral.significantDigits : Numeral → Nat
  | .decimal _ digits _ => (digitsOf digits).length
  | .nan | .infinity _ => 0

/-! ### Integers among the numbers -/

namespace Binary64

lemma natAbs_signed (negative : Bool) (n : Nat) : (signed negative n).natAbs = n := by
  cases negative <;> simp [signed]

/-- The integer that a number is, by its units. -/
lemma value_eq_intCast_iff {negative : Bool} {u : Nat} {hu : OnGrid u} {n : ℤ} :
    value (.finite negative u hu) = n ↔ signed negative u = n * unitsPerOne := by
  rw [value, div_eq_iff unitsPerOne_cast_pos.ne']
  exact_mod_cast Iff.rfl

lemma signed_mul (negative : Bool) (m n : Nat) :
    signed negative (m * n) = signed negative m * n := by
  cases negative <;> simp [signed]

/-- A number is an integer just if its units are a multiple of those of one. -/
lemma exists_int_value_iff (negative : Bool) {u : Nat} (hu : OnGrid u) :
    (∃ n : ℤ, value (.finite negative u hu) = n) ↔ u % unitsPerOne = 0 := by
  rw [← Nat.dvd_iff_mod_eq_zero]
  constructor
  · rintro ⟨n, hn⟩
    have hdvd := congrArg Int.natAbs (value_eq_intCast_iff.mp hn)
    rw [natAbs_signed, Int.natAbs_mul, Int.natAbs_natCast] at hdvd
    exact Dvd.intro_left _ hdvd.symm
  · rintro ⟨k, rfl⟩
    refine ⟨signed negative k, value_eq_intCast_iff.mpr ?_⟩
    rw [Nat.mul_comm, signed_mul]

end Binary64

/-- A decimal without a fraction is rounded to an integer. -/
lemma Decimal.dvd_of_exponent_nonneg {d : Decimal} {u : Nat} (hu : OnGrid u) (hd : d.units = u)
    (h : 0 ≤ d.exponent) : u % unitsPerOne = 0 := by
  obtain ⟨k, hk⟩ := Int.eq_ofNat_of_zero_le h
  have hinteger : d.toRat = ((d.digits * 10 ^ k : Nat) : ℤ) := by
    rw [toRat, hk, zpow_natCast]
    push_cast
    rfl
  have hround := isRounded_ofInt ((d.digits * 10 ^ k : Nat) : ℤ)
  have hvalue : nearest (((d.digits * 10 ^ k : Nat) : ℤ) : ℚ) = u / unitsPerOne := by
    rw [← hinteger]
    exact units_eq_iff.mp hd
  have hfinite := hround.isFinite_iff.mpr (by
    rw [hvalue, abs_of_nonneg (by have := unitsPerOne_cast_pos; positivity)]
    exact div_lt_div_of_pos_right (Nat.cast_lt.mpr hu.1) unitsPerOne_cast_pos)
  obtain ⟨n, hn⟩ := exists_int_value_ofInt hfinite
  rw [hround.value_eq hfinite, hvalue] at hn
  exact (exists_int_value_iff false hu).mp ⟨n, hn⟩

namespace Binary64

/-! ### Texts of numbers -/

/-- The text of an integer is that integer. -/
lemma plainText_integer (negative : Bool) {u : Nat} (hu : OnGrid u) (h : u % unitsPerOne = 0) :
    (Binary64.finite negative u hu).plainText
      = .ok (integerText (signed negative (u / unitsPerOne))) := by
  rw [plainText, if_pos h]

/-- The text of any other number is that of its shortest decimal, which has a fraction. -/
lemma plainText_fraction (negative : Bool) {u : Nat} (hu : OnGrid u) (h : u % unitsPerOne ≠ 0) :
    ∃ n places : Nat, 0 < places ∧ shortest u = ⟨n, -places⟩ ∧
      (Binary64.finite negative u hu).plainText
        = .ok (withSign negative (Decimal.text ⟨n, -places⟩)) := by
  have hne : u ≠ 0 := by
    rintro rfl
    exact h (Nat.zero_mod _)
  obtain ⟨⟨n, e⟩, hshortest⟩ : ∃ d, shortest u = d := ⟨_, rfl⟩
  have hexponent : e < 0 := by
    by_contra hle
    exact h (dvd_of_exponent_nonneg hu (hshortest ▸ units_shortest hu) (not_lt.mp hle))
  obtain ⟨places, rfl⟩ := Int.exists_eq_neg_ofNat hexponent.le
  refine ⟨n, places, by omega, hshortest, ?_⟩
  rw [plainText, if_neg h, text, if_neg hne, hshortest]

/-- A sign leaves the characters behind it where they are. -/
lemma mem_withSign (negative : Bool) {s : Text} {c : Char} (h : c ∈ s) :
    c ∈ withSign negative s := by
  rw [withSign]
  split_ifs
  · exact List.mem_cons_of_mem _ h
  · exact h

/-- A text that holds a decimal is read as that decimal rounded. -/
lemma readNumber_of_read? {s : Text} {negative : Bool} {m : Nat} {e : ℤ}
    (h : Numeral.read? s = some (.decimal negative m e)) :
    readNumber s = .ok (.ofScaled negative m e) := by
  rw [readNumber, h]
  exact congrArg Except.ok (Numeral.toBinary64_decimal negative m e)

/-- The text of an integer is read as the number, and without the sign of a zero. -/
lemma readNumber_integerText (negative : Bool) {u : Nat} (hu : OnGrid u)
    (h : u % unitsPerOne = 0) :
    readNumber (integerText (signed negative (u / unitsPerOne)))
      = .ok (if Binary64.finite negative u hu = .zero true then .zero false
          else .finite negative u hu) := by
  have hU := unitsPerOne_cast_pos
  have hdvd : unitsPerOne ∣ u := Nat.dvd_of_mod_eq_zero h
  have hunits : (⟨u / unitsPerOne, 0⟩ : Decimal).units = u := by
    rw [units_eq_iff, toRat, zpow_zero, mul_one, Nat.cast_div hdvd hU.ne']
    exact nearest_div_unitsPerOne hu
  have hread := Numeral.read?_integerText (signed negative (u / unitsPerOne))
  rw [natAbs_signed] at hread
  rw [readNumber_of_read? hread, ofScaled_of_units hu hunits]
  congr 1
  rcases Nat.eq_zero_or_pos u with rfl | hpos
  · have hsigned : signed negative (0 / unitsPerOne) = 0 := by
      rw [Nat.zero_div]
      cases negative <;> rfl
    rw [hsigned]
    cases negative with
    | true => exact (if_pos rfl).symm
    | false => exact (if_neg fun heq => Bool.false_ne_true (finite.inj heq).1).symm
  · have hquotient : 0 < u / unitsPerOne := Nat.div_pos (Nat.le_of_dvd hpos hdvd) unitsPerOne_pos
    have hne : Binary64.finite negative u hu ≠ .zero true :=
      fun heq => hpos.ne' (finite.inj heq).2
    have hsign : decide (signed negative (u / unitsPerOne) < 0) = negative := by
      cases negative <;> simp only [signed_false, signed_true]
      · exact decide_eq_false (by omega)
      · exact decide_eq_true (by omega)
    rw [if_neg hne, hsign]

/-- The text of a fraction that is rounded to a number is read as that number. -/
lemma readNumber_fraction (negative : Bool) {n places u : Nat} (hpos : 0 < places)
    (hu : OnGrid u) (h : (⟨n, -places⟩ : Decimal).units = u) :
    readNumber (withSign negative (Decimal.text ⟨n, -places⟩)) = .ok (.finite negative u hu) := by
  rw [readNumber_of_read? (Numeral.read?_text_fraction negative hpos n), ofScaled_of_units hu h]

/-- A numeral that is read as a number has no fewer digits than its shortest decimal. -/
lemma length_shortest_le_significantDigits {numeral : Numeral} {negative : Bool} {u : Nat}
    {hu : OnGrid u} (hpos : 0 < u) (h : numeral.toBinary64 = .finite negative u hu) :
    (digitsOf (shortest u).digits).length ≤ numeral.significantDigits := by
  cases numeral with
  | nan | infinity => exact absurd h (by simp [Numeral.toBinary64])
  | decimal negative' m e =>
      rw [Numeral.toBinary64_decimal] at h
      exact length_shortest_le hu hpos (units_of_ofScaled h)

/-- **The text of a number** as a colour shows it is read as the number, though without the sign of
a zero.  It is an integer, with no point and no exponent, just if the number is one, and then it is
that integer.  No numeral of fewer digits than the text of any other number is read as that
number. -/
theorem plainText_spec (x : Binary64) (hx : x.isFinite = true) :
    ∃ text, x.plainText = .ok text ∧
      readNumber text = .ok (if x = .zero true then .zero false else x) ∧
      (IsCanonicalInteger text ↔ ∃ n : ℤ, x.value = n) ∧
      ('.' ∉ text ∧ 'e' ∉ text ↔ ∃ n : ℤ, x.value = n) ∧
      (∀ n : ℤ, x.value = n → text = integerText n) ∧
      ((¬ ∃ n : ℤ, x.value = n) → ∃ numeral, Numeral.read? text = some numeral ∧
        ∀ (s : Text) (other : Numeral), Numeral.read? s = some other → readNumber s = .ok x →
          numeral.significantDigits ≤ other.significantDigits) := by
  obtain ⟨negative, u, hu, rfl⟩ := exists_finite hx
  by_cases h : u % unitsPerOne = 0
  · have hinteger := (exists_int_value_iff negative hu).mpr h
    have hcanonical := isCanonicalInteger_integerText (signed negative (u / unitsPerOne))
    refine ⟨_, plainText_integer negative hu h, readNumber_integerText negative hu h,
      iff_of_true hcanonical hinteger, iff_of_true ⟨?_, ?_⟩ hinteger, fun n hn => ?_,
      fun hnot => absurd hinteger hnot⟩
    · exact hcanonical.notMem (by decide) (by decide)
    · exact hcanonical.notMem (by decide) (by decide)
    · rw [value_eq_intCast_iff, ← Nat.div_mul_cancel (Nat.dvd_of_mod_eq_zero h), signed_mul] at hn
      rw [mul_right_cancel₀ (by exact_mod_cast unitsPerOne_pos.ne') hn]
  · have hfraction := mt (exists_int_value_iff negative hu).mp h
    obtain ⟨n, places, hpos, hshortest, htext⟩ := plainText_fraction negative hu h
    have hunits : (⟨n, -places⟩ : Decimal).units = u := hshortest ▸ units_shortest hu
    have hnat : 0 < u := Nat.pos_of_ne_zero fun hzero => h (by rw [hzero, Nat.zero_mod])
    have hne : Binary64.finite negative u hu ≠ .zero true := fun heq => hnat.ne' (finite.inj heq).2
    have hmark : ¬ ('.' ∉ withSign negative (Decimal.text ⟨n, -places⟩)
        ∧ 'e' ∉ withSign negative (Decimal.text ⟨n, -places⟩)) := by
      rw [not_and_or, not_not, not_not]
      exact (point_or_exponent_mem_text hpos n).imp (mem_withSign negative) (mem_withSign negative)
    refine ⟨_, htext, ?_, iff_of_false (fun hcanonical => hmark ⟨?_, ?_⟩) hfraction,
      iff_of_false hmark hfraction, fun k hk => absurd ⟨k, hk⟩ hfraction,
      fun _ => ⟨_, Numeral.read?_text_fraction negative hpos n, fun s other hother hs => ?_⟩⟩
    · rw [if_neg hne]
      exact readNumber_fraction negative hpos hu (hshortest ▸ units_shortest hu)
    · exact hcanonical.notMem (by decide) (by decide)
    · exact hcanonical.notMem (by decide) (by decide)
    · rw [readNumber, hother] at hs
      have hfewest := length_shortest_le_significantDigits hnat (Except.ok.inj hs)
      rwa [hshortest] at hfewest

/-- A power of two, whose neighbour below is half as far as the one above, needs sixteen digits; a
negative zero is an integer and loses its sign. -/
theorem plainText_spec_power :
    ((5.684341886080802e-14 : Binary64).isFinite = true ∧
      (5.684341886080802e-14 : Binary64).plainText = .ok "5.684341886080802e-14".toList ∧
      readNumber "5.684341886080802e-14".toList = .ok 5.684341886080802e-14 ∧
      (¬ ∃ n : ℤ, (5.684341886080802e-14 : Binary64).value = n) ∧
      ∀ (s : Text) (other : Numeral), Numeral.read? s = some other →
        readNumber s = .ok 5.684341886080802e-14 → 16 ≤ other.significantDigits) ∧
      (Binary64.zero true).isFinite = true ∧ (Binary64.zero true).value = (0 : ℤ) ∧
        (Binary64.zero true).plainText = .ok (integerText 0) ∧
        readNumber (integerText 0) = .ok (.zero false) := by
  refine ⟨?_, rfl, by simp, ?_⟩
  · have hfinite : (5.684341886080802e-14 : Binary64).isFinite = true := by decide +kernel
    have hplain : (5.684341886080802e-14 : Binary64).plainText
        = .ok "5.684341886080802e-14".toList := by decide +kernel
    have hsign : (5.684341886080802e-14 : Binary64) ≠ .zero true := by decide +kernel
    obtain ⟨text, htext, hread, -, hmark, -, hfewest⟩ := plainText_spec _ hfinite
    obtain rfl : text = "5.684341886080802e-14".toList := Except.ok.inj (htext.symm.trans hplain)
    have hfraction := hmark.not.mp (by decide)
    obtain ⟨numeral, hnumeral, hleast⟩ := hfewest hfraction
    have hdigits : Numeral.read? "5.684341886080802e-14".toList
        = some (.decimal false 5684341886080802 (-29)) := by decide +kernel
    obtain rfl := Option.some.inj (hnumeral.symm.trans hdigits)
    rw [if_neg hsign] at hread
    exact ⟨hfinite, hplain, hread, hfraction, hleast⟩
  · obtain ⟨text, htext, hread, -, -, hinteger, -⟩ := plainText_spec (.zero true) rfl
    obtain rfl := hinteger 0 (by simp)
    rw [if_pos rfl] at hread
    exact ⟨htext, hread⟩

/-- The smallest number needs one digit, and an integer is written with all of its digits. -/
example : (-5e-324 : Binary64).plainText = .ok "-5e-324".toList ∧
    (1e22 : Binary64).plainText = .ok "10000000000000000000000".toList := by decide +kernel

end Binary64

end Swatch
