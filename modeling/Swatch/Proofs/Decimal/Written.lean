import Swatch.Proofs.Decimal.Fixed
/-!
Decimals with a fraction as the text of a number shows them, and how they are read back.

A fraction is written with its point while its leading digit stands near the point, and with an
exponent of at least two digits otherwise.  What is read back are in both cases the digits of the
decimal and its exponent, not only its value.

* `Decimal.exponentText`: an exponent as it is written.
* `Decimal.text_fraction`: the two ways of writing a fraction.
* `Numeral.read?_withSign`: what begins with a digit is read as a decimal, with the sign before it.
* `Numeral.decimal?_numberText`: digits with a point and an exponent.
* `Numeral.read?_text_fraction`, `Numeral.read?_integerText`: fractions and integers are read back.
-/

namespace Swatch

open Binary64 Parts

namespace Decimal

/-! ### Two ways of writing -/

/-- An exponent as it is written: with its sign, and with two digits at least. -/
def exponentText (exponent : ℤ) : Text :=
  'e' :: (if exponent < 0 then '-' else '+') ::
    (List.replicate (2 - (digitsOf exponent.natAbs).length) '0' ++ digitsOf exponent.natAbs)

/-- A fraction whose leading digit stands near the point is written with its point. -/
lemma text_point {places n : Nat} (hpos : 0 < places)
    (hlow : -4 ≤ -(places : ℤ) + ((digitsOf n).length - 1 : Nat))
    (hhigh : -(places : ℤ) + ((digitsOf n).length - 1 : Nat) < 16) :
    text ⟨n, -places⟩ = pointText places n := by
  have hlength : 0 < (digitsOf n).length := Nat.length_toDigits_pos
  have hnear : (decide (-4 ≤ -(places : ℤ) + ((digitsOf n).length - 1 : Nat))
      && decide (-(places : ℤ) + ((digitsOf n).length - 1 : Nat) < 16)) = true := by
    rw [Bool.and_eq_true, decide_eq_true_eq, decide_eq_true_eq]
    exact ⟨hlow, hhigh⟩
  have hplain : (decide (-(places : ℤ) ≤ 0)
      && decide (-6 < -(places : ℤ) + (digitsOf n).length)) = true := by
    rw [Bool.and_eq_true, decide_eq_true_eq, decide_eq_true_eq]
    omega
  rw [← scaledText_point hpos (by omega), text, scaledText]
  simp only [if_pos hnear, if_pos hplain]
  rcases le_or_gt (digitsOf n).length places with hall | hsome
  · -- all digits stand behind the point
    have hzeros : (-(-(places : ℤ) + ((digitsOf n).length - 1 : Nat)) - 1).toNat
        = (-(-(places : ℤ) + (digitsOf n).length)).toNat := by omega
    rw [if_pos (by omega), if_pos (by omega), hzeros]
  · have hwhole : (-(places : ℤ) + ((digitsOf n).length - 1 : Nat) + 1).toNat
        = (-(places : ℤ) + (digitsOf n).length).toNat := by omega
    rw [if_neg (by omega), if_neg (by omega), if_neg (by omega), if_neg (by omega), hwhole]

/-- Any other one is written with an exponent. -/
lemma text_scientific {places n : Nat} {lead : ℤ}
    (hlead : lead = -(places : ℤ) + ((digitsOf n).length - 1 : Nat))
    (hfar : lead < -4 ∨ 16 ≤ lead) :
    text ⟨n, -places⟩ = numberText ((digitsOf n).length - 1) n ++ exponentText lead := by
  have hfar : ¬ (decide (-4 ≤ lead) && decide (lead < 16)) = true := by
    rw [Bool.and_eq_true, decide_eq_true_eq, decide_eq_true_eq]
    omega
  subst hlead
  rw [numberText_digits, exponentText]
  exact (if_neg hfar).trans (List.append_assoc _ _ _)

/-- A fraction is written in one of two ways. -/
theorem text_fraction {places : Nat} (hpos : 0 < places) (n : Nat) :
    text ⟨n, -places⟩ = pointText places n ∨
      ∃ lead : ℤ, lead = -(places : ℤ) + ((digitsOf n).length - 1 : Nat) ∧
        text ⟨n, -places⟩ = numberText ((digitsOf n).length - 1) n ++ exponentText lead := by
  by_cases hnear : -4 ≤ -(places : ℤ) + ((digitsOf n).length - 1 : Nat)
      ∧ -(places : ℤ) + ((digitsOf n).length - 1 : Nat) < 16
  · exact Or.inl (text_point hpos hnear.1 hnear.2)
  · exact Or.inr ⟨_, rfl, text_scientific rfl (by omega)⟩

/-- A fraction holds a point or an exponent. -/
lemma point_or_exponent_mem_text {places : Nat} (hpos : 0 < places) (n : Nat) :
    '.' ∈ text ⟨n, -places⟩ ∨ 'e' ∈ text ⟨n, -places⟩ := by
  rcases text_fraction hpos n with htext | ⟨lead, -, htext⟩
  · rw [htext]
    exact Or.inl (List.mem_append_right _ List.mem_cons_self)
  · rw [htext]
    exact Or.inr (List.mem_append_right _ List.mem_cons_self)

end Decimal

namespace Numeral

open Decimal

/-! ### Reading exponents -/

/-- Zeros in front make no difference to the value of digits. -/
lemma digitsValue_replicate_append (k : Nat) (s : Text) :
    digitsValue (List.replicate k '0' ++ s) = digitsValue s := by
  induction k with
  | zero => rfl
  | succ k ih =>
      rw [List.replicate_succ, List.cons_append, digitsValue, Nat.ofDigitChars_cons]
      exact ih

lemma exponent?_nil : exponent? [] = some 0 := rfl

lemma exponent?_exponentText (exponent : ℤ) :
    exponent? (exponentText exponent) = some exponent := by
  obtain ⟨digits, hdigits⟩ : ∃ digits, List.replicate (2 - (digitsOf exponent.natAbs).length) '0'
    ++ digitsOf exponent.natAbs = digits := ⟨_, rfl⟩
  have hvalue : digitsValue digits = exponent.natAbs := by
    rw [← hdigits, digitsValue_replicate_append]
    exact Nat.ofDigitChars_ten_toDigits
  have hrun : (decide (digits ≠ []) && digits.all Char.isDigit) = true := by
    rw [Bool.and_eq_true, decide_eq_true_eq, List.all_eq_true, ← hdigits]
    refine ⟨by simp [(isRun_digitsOf _).1], fun c hc => ?_⟩
    rcases List.mem_append.mp hc with hzero | hdigit
    · rw [List.eq_of_mem_replicate hzero]
      rfl
    · exact (isRun_digitsOf _).2 c hdigit
  have hsplit : splitSign ((if exponent < 0 then '-' else '+') :: digits)
      = (decide (exponent < 0), digits) := by
    split_ifs with hneg
    · rw [decide_eq_true hneg]
      rfl
    · rw [decide_eq_false hneg]
      rfl
  rw [exponentText, hdigits, exponent?, if_pos (by decide)]
  simp only [hsplit, if_pos hrun, hvalue, decide_eq_true_eq]
  congr 1
  omega

/-! ### Reading digits -/

/-- The characters of digits with a point, an exponent and signs. -/
def IsNumeralChar (c : Char) : Prop := isDecimalChar c = true ∨ c = 'e' ∨ c = '+' ∨ c = '-'

lemma IsNumeralChar.isAscii {c : Char} (h : IsNumeralChar c) :
    (c.toNat < 128 ∧ isAsciiBlank c = false) ∧ c ≠ '_' := by
  rcases h with h | rfl | rfl | rfl
  · refine ⟨isAsciiBlank_of_isDecimalChar h, ?_⟩
    rintro rfl
    exact absurd h (by decide)
  · decide
  · decide
  · decide

lemma isNumeralChar_exponentText {exponent : ℤ} : ∀ c ∈ exponentText exponent, IsNumeralChar c := by
  have hdigit {c : Char} (hc : c.isDigit = true) : IsNumeralChar c :=
    Or.inl (isDecimalChar_of_isDigit hc)
  have hsign : IsNumeralChar (if exponent < 0 then '-' else '+') := by
    split_ifs <;> simp [IsNumeralChar]
  refine List.forall_mem_cons.mpr ⟨by simp [IsNumeralChar], List.forall_mem_cons.mpr ⟨hsign, ?_⟩⟩
  intro c hc
  rcases List.mem_append.mp hc with hzero | h
  · rw [List.eq_of_mem_replicate hzero]
    exact hdigit (by decide)
  · exact hdigit ((isRun_digitsOf _).2 c h)

/-- What begins with a digit and holds nothing but digits, points and an exponent is read as a
decimal, with the sign before it. -/
lemma read?_withSign (negative : Bool) {whole rest : Text} (hwhole : IsRun Char.isDigit whole)
    (hrest : ∀ c ∈ rest, IsNumeralChar c) :
    read? (withSign negative (whole ++ rest)) = decimal? negative (whole ++ rest) := by
  obtain ⟨first, whole, rfl⟩ := List.exists_cons_of_ne_nil hwhole.1
  have hfirst : first.isDigit = true := hwhole.2 first List.mem_cons_self
  have hchar : ∀ c ∈ withSign negative (first :: whole ++ rest), IsNumeralChar c := by
    have hbody : ∀ c ∈ first :: whole ++ rest, IsNumeralChar c := fun c hc =>
      (List.mem_append.mp hc).elim
        (fun hdigit => Or.inl (isDecimalChar_of_isDigit (hwhole.2 c hdigit))) (hrest c)
    rw [withSign]
    split_ifs
    · exact List.forall_mem_cons.mpr ⟨by simp [IsNumeralChar], hbody⟩
    · exact hbody
  have hplain := numeralText_eq_self fun c hc => (hchar c hc).isAscii.1
  have hunderscore : '_' ∉ withSign negative (first :: whole ++ rest) :=
    fun hmem => (hchar _ hmem).isAscii.2 rfl
  have hsplit : splitSign (withSign negative (first :: whole ++ rest))
      = (negative, first :: whole ++ rest) := by
    cases negative with
    | true => rfl
    | false =>
        have hne {c : Char} (hc : c.isDigit = false) : first ≠ c := by
          rintro rfl
          rw [hc] at hfirst
          exact absurd hfirst (by simp)
        rw [withSign, if_neg Bool.false_ne_true, List.cons_append, splitSign]
        · exact fun t heq => hne (by decide) (List.cons.inj heq).1
        · exact fun t heq => hne (by decide) (List.cons.inj heq).1
  -- no word begins with a digit, which lower case leaves as it is
  have hword {c : Char} {w : Text} (hc : 65 ≤ c.toNat) :
      (first :: whole ++ rest).map Char.toLower ≠ c :: w := by
    intro heq
    have hlower := toNat_toLower first
    rw [(List.cons.inj heq).1] at hlower
    rw [isDigit_iff] at hfirst
    split_ifs at hlower <;> omega
  rw [read?, hplain, joinDigits?_of_notMem hunderscore]
  simp only [Option.bind_eq_bind, Option.bind_some, hsplit]
  rw [if_neg, if_neg]
  · exact hword (by decide)
  · rw [Bool.or_eq_true, decide_eq_true_eq, decide_eq_true_eq, not_or]
    exact ⟨hword (by decide), hword (by decide)⟩

/-- What is read as an exponent begins with its letter, if it is not empty. -/
lemma stops_of_exponent? {tail : Text} {exponent : ℤ} (h : exponent? tail = some exponent)
    {p : Char → Bool} (hp : p 'e' = false ∧ p 'E' = false) : Text.Stops p tail := by
  cases tail with
  | nil => exact Text.stops_nil p
  | cons c tail =>
      rw [exponent?] at h
      split_ifs at h with hletter
      rw [Bool.or_eq_true, decide_eq_true_eq, decide_eq_true_eq] at hletter
      rcases hletter with rfl | rfl
      · exact Text.stops_cons.mpr hp.1
      · exact Text.stops_cons.mpr hp.2

/-- Digits with a point or without one, and with an exponent or without one. -/
lemma decimal?_numberText (negative : Bool) (places n : Nat) {tail : Text} {exponent : ℤ}
    (htail : exponent? tail = some exponent) : decimal? negative (numberText places n ++ tail)
      = some (.decimal negative n (exponent - places)) := by
  have hstop : Text.Stops Char.isDigit tail := stops_of_exponent? htail (by decide)
  have hpoint : Text.Stops (· = '.') tail := stops_of_exponent? htail (by decide)
  rcases Nat.eq_zero_or_pos places with rfl | hpos
  · have hspan : Text.span Char.isDigit (digitsOf n ++ tail) = (digitsOf n, tail) :=
      Text.span_eq_iff.mpr ⟨rfl, (isRun_digitsOf n).2, hstop⟩
    have hvalue : digitsValue (digitsOf n) = n := Nat.ofDigitChars_ten_toDigits
    rw [numberText, if_pos rfl, decimal?]
    simp only [hspan]
    split
    · exact absurd (Text.stops_cons.mp hpoint) (by decide)
    · simp only [List.append_nil, if_neg (isRun_digitsOf n).1, htail, hvalue, Option.map_some,
        List.length_nil]
  · have hspan : Text.span Char.isDigit
        (digitsOf (n / 10 ^ places) ++ '.' :: (lastDigits places n ++ tail))
          = (digitsOf (n / 10 ^ places), '.' :: (lastDigits places n ++ tail)) :=
      Text.span_eq_iff.mpr ⟨rfl, (isRun_digitsOf _).2, Text.stops_cons.mpr (by decide)⟩
    have hspan' : Text.span Char.isDigit (lastDigits places n ++ tail)
        = (lastDigits places n, tail) :=
      Text.span_eq_iff.mpr ⟨rfl, fun c hc => isDigit_of_mem_lastDigits hc, hstop⟩
    have hne : digitsOf (n / 10 ^ places) ++ lastDigits places n ≠ [] := by
      simp [(isRun_digitsOf _).1]
    rw [numberText, if_neg hpos.ne', pointText, List.append_assoc, List.cons_append, decimal?]
    simp only [hspan, hspan', if_neg hne, htail, digitsValue_pointDigits, Option.map_some,
      length_lastDigits]

/-- Digits with a point and an exponent are read with the sign before them. -/
lemma read?_withSign_numberText (negative : Bool) (places n : Nat) {tail : Text} {exponent : ℤ}
    (htail : exponent? tail = some exponent) (hchar : ∀ c ∈ tail, IsNumeralChar c) :
    read? (withSign negative (numberText places n ++ tail))
      = some (.decimal negative n (exponent - places)) := by
  rw [← decimal?_numberText negative places n htail]
  have hdigit {c : Char} (hc : c.isDigit = true) : IsNumeralChar c :=
    Or.inl (isDecimalChar_of_isDigit hc)
  rw [numberText]
  split_ifs
  · exact read?_withSign negative (isRun_digitsOf n) hchar
  · rw [pointText, List.append_assoc, List.cons_append]
    refine read?_withSign negative (isRun_digitsOf _) (List.forall_mem_cons.mpr ⟨?_, ?_⟩)
    · exact Or.inl (by decide)
    · intro c hc
      exact (List.mem_append.mp hc).elim (fun h => hdigit (isDigit_of_mem_lastDigits h)) (hchar c)

/-- **A fraction is read back** with its digits and its exponent. -/
theorem read?_text_fraction (negative : Bool) {places : Nat} (hpos : 0 < places) (n : Nat) :
    read? (withSign negative (text ⟨n, -places⟩)) = some (.decimal negative n (-places)) := by
  rcases text_fraction hpos n with htext | ⟨lead, hlead, htext⟩
  · have hread := read?_withSign_numberText negative places n exponent?_nil (by simp)
    rw [List.append_nil, numberText, if_neg hpos.ne', zero_sub] at hread
    rw [htext, hread]
  · rw [htext, read?_withSign_numberText negative _ n (exponent?_exponentText lead)
      isNumeralChar_exponentText]
    congr 2
    omega

/-- An integer is read back. -/
theorem read?_integerText (n : ℤ) :
    read? (integerText n) = some (.decimal (decide (n < 0)) n.natAbs 0) := by
  have hread := read?_withSign_numberText (decide (n < 0)) 0 n.natAbs exponent?_nil (by simp)
  rwa [List.append_nil, numberText, if_pos rfl, Nat.cast_zero, sub_zero] at hread

end Numeral

end Swatch
