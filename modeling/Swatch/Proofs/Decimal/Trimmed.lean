import Swatch.Form.Oklch
import Swatch.Proofs.Binary64.Error
import Swatch.Proofs.Decimal.Places
import Swatch.Proofs.Decimal.Reading
/-!
Rounded numbers without the zeros at their end.

* `Decimal.Shows`: a text shows a number of units, some zeros at the end left out.
* `Decimal.shows_dropEnd`, `Decimal.shows_trimFraction`: what an `oklch` function shows of its
  numbers.
* `Decimal.Shows.exists_readNumber`: the number that is read from what is shown.
* `Decimal.Denotes`, `Decimal.Shows.denotes`: the number that digits and a point denote, which the
  zeros left out do not change.
* `Decimal.IsTrimmed`, `Decimal.isTrimmed_trimFraction`: no zero is left at the end of a fraction.
* `Decimal.trimAlpha_pointText`: an alpha loses the same zeros, and one before its point.
* `Decimal.IsTrimmed.withoutLeadingZero`: that one makes no difference to its number.
* `Binary64.exists_shown`: a number that is rounded, shown and read again.
-/

namespace Swatch

open Binary64 Decimal Parts

namespace Text

/-- What an ending is taken off of is left as it is, unless it ends so. -/
lemma dropEnd_cases (ending s : Text) : dropEnd ending s = s ∨ s = dropEnd ending s ++ ending := by
  rw [dropEnd]
  cases hrest : dropWord? ending.reverse s.reverse with
  | none => exact Or.inl rfl
  | some rest =>
      refine Or.inr (List.reverse_injective ?_)
      rw [Option.map_some, Option.getD_some, List.reverse_append, List.reverse_reverse]
      exact dropWord?_eq_some_iff.mp hrest

/-- The last character is left out if it is to be, and then those before it. -/
lemma trimEnd_append_singleton (p : Char → Bool) (s : Text) (c : Char) :
    trimEnd p (s ++ [c]) = if p c then trimEnd p s else s ++ [c] := by
  rw [trimEnd, trimEnd, List.reverse_append, List.reverse_singleton, List.singleton_append,
    List.dropWhile_cons]
  split_ifs
  · rfl
  · rw [List.reverse_cons, List.reverse_reverse]

/-- What stands before a character that is not left out stays, and so does that character. -/
lemma exists_trimEnd_append_cons {p : Char → Bool} {c : Char} (hc : p c = false) (t : Text) :
    ∃ t', ∀ s, trimEnd p (s ++ c :: t) = s ++ c :: t' := by
  induction t using List.reverseRecOn with
  | nil =>
      refine ⟨[], fun s => ?_⟩
      rw [trimEnd_append_singleton, if_neg (by simp [hc])]
  | append_singleton t d ih =>
      obtain ⟨t', ht'⟩ := ih
      by_cases hd : p d = true
      · refine ⟨t', fun s => ?_⟩
        rw [← List.cons_append, ← List.append_assoc, trimEnd_append_singleton, if_pos hd, ht']
      · refine ⟨t ++ [d], fun s => ?_⟩
        rw [← List.cons_append, ← List.append_assoc, trimEnd_append_singleton, if_neg hd]

@[simp] lemma dropEnd_append (ending s : Text) : dropEnd ending (s ++ ending) = s := by
  rw [dropEnd, List.reverse_append, dropWord?_append, Option.map_some, Option.getD_some,
    List.reverse_reverse]

/-- An ending of one character is not taken off behind another one. -/
lemma dropEnd_singleton_append {c d : Char} (hcd : d ≠ c) (s : Text) :
    dropEnd [c] (s ++ [d]) = s ++ [d] := by
  rcases dropEnd_cases [c] (s ++ [d]) with hsame | hsplit
  · exact hsame
  · exact absurd (List.append_singleton_inj.mp hsplit).2 hcd

/-- An ending of one character is taken off behind the last character. -/
lemma dropEnd_append_cons (c d : Char) (s t : Text) :
    dropEnd [c] (s ++ d :: t) = s ++ dropEnd [c] (d :: t) := by
  obtain ⟨l, e, hsplit⟩ : ∃ l e, d :: t = l ++ [e] :=
    ⟨_, _, (List.dropLast_append_getLast (List.cons_ne_nil d t)).symm⟩
  rw [hsplit, ← List.append_assoc]
  by_cases he : e = c
  · rw [he, dropEnd_append, dropEnd_append]
  · rw [dropEnd_singleton_append he, dropEnd_singleton_append he, List.append_assoc]

/-- A text without the zero before a point with which it begins. -/
def withoutLeadingZero : Text → Text
  | '0' :: '.' :: s => '.' :: s
  | s => s

end Text

namespace Decimal

/-- A number of units of `10 ^ -places`, with a point unless it has no places. -/
def numberText (places n : Nat) : Text := if places = 0 then digitsOf n else pointText places n

/-- A text shows a number of units of `10 ^ -places`, with as many places or fewer. -/
def Shows (places n : Nat) (s : Text) : Prop :=
  ∃ kept m, kept ≤ places ∧ n = m * 10 ^ (places - kept) ∧ s = numberText kept m

lemma shows_pointText {places : Nat} (hpos : 0 < places) (n : Nat) :
    Shows places n (pointText places n) := by
  refine ⟨places, n, le_rfl, ?_, ?_⟩
  · rw [Nat.sub_self, Nat.pow_zero, Nat.mul_one]
  · rw [numberText, if_neg hpos.ne']

lemma isDecimal_numberText (places n : Nat) : IsDecimal (numberText places n) := by
  rw [numberText]
  split_ifs
  · exact isDecimal_digitsOf n
  · exact isDecimal_pointText places n

lemma Shows.isDecimal {places n : Nat} {s : Text} (h : Shows places n s) : IsDecimal s := by
  obtain ⟨kept, m, -, -, rfl⟩ := h
  exact isDecimal_numberText kept m

/-- The zeros that are left out make no difference to the number. -/
lemma Shows.exists_numberText {places n : Nat} {s : Text} (h : Shows places n s) :
    ∃ kept m : Nat, (n : ℚ) / 10 ^ places = m / 10 ^ kept ∧ s = numberText kept m := by
  obtain ⟨kept, m, hkept, rfl, rfl⟩ := h
  refine ⟨kept, m, ?_, rfl⟩
  rw [div_eq_div_iff (by positivity) (by positivity)]
  push_cast
  rw [mul_assoc, ← pow_add, Nat.sub_add_cancel hkept]

/-- The number that is read from what is shown. -/
theorem Shows.exists_readNumber {places n : Nat} {s : Text} (h : Shows places n s) :
    ∃ x, readNumber s = .ok x ∧ IsRounded ((n : ℚ) / 10 ^ places) x := by
  obtain ⟨kept, m, hvalue, rfl⟩ := h.exists_numberText
  rw [hvalue, numberText]
  split_ifs with hzero
  · obtain ⟨x, hx, hround⟩ := exists_readNumber_digitsOf m
    refine ⟨x, hx, ?_⟩
    rwa [hzero, pow_zero, div_one]
  · exact exists_readNumber_pointText kept m

/-! ### The numbers of texts -/

/-- The number that digits and a point denote: all digits, over the power of ten of those behind the
point. -/
def decimalValue (s : Text) : ℚ :=
  digitsValue (s.filter Char.isDigit) / 10 ^ ((s.dropWhile (· ≠ '.')).countP Char.isDigit)

/-- A text is digits with at most one point, which denote a number. -/
structure Denotes (s : Text) (q : ℚ) : Prop where
  isDecimal : IsDecimal s
  holdsNumber : holdsNumber s = true
  value_eq : decimalValue s = q

lemma Denotes.nonneg {s : Text} {q : ℚ} (h : Denotes s q) : 0 ≤ q := by
  rw [← h.value_eq, decimalValue]
  positivity

lemma denotes_digitsOf (n : Nat) : Denotes (digitsOf n) n := by
  have hdigits : ∀ c ∈ digitsOf n, c.isDigit = true := (isRun_digitsOf n).2
  have hpoint : '.' ∉ digitsOf n := point_notMem_of_digits hdigits
  have hrest : (digitsOf n).dropWhile (· ≠ '.') = [] := by
    refine List.dropWhile_eq_nil_iff.mpr fun c hc => ?_
    rw [decide_eq_true_eq]
    exact fun heq => hpoint (heq ▸ hc)
  have hvalue : digitsValue (digitsOf n) = n := Nat.ofDigitChars_ten_toDigits
  refine ⟨isDecimal_digitsOf n, ?_, ?_⟩
  · rw [Swatch.holdsNumber, any_isDigit hdigits, List.count_eq_zero_of_not_mem hpoint]
    simp [(isRun_digitsOf n).1]
  · rw [decimalValue, hrest, List.filter_eq_self.mpr hdigits, hvalue, List.countP_nil, pow_zero,
      div_one]

lemma denotes_pointText (places n : Nat) : Denotes (pointText places n) (n / 10 ^ places) := by
  have hwhole : ∀ c ∈ digitsOf (n / 10 ^ places), c.isDigit = true := (isRun_digitsOf _).2
  have hfraction : ∀ c ∈ lastDigits places n, c.isDigit = true :=
    fun c hc => isDigit_of_mem_lastDigits hc
  have hwholepoint := point_notMem_of_digits hwhole
  have hfractionpoint := point_notMem_of_digits hfraction
  have hrest : (pointText places n).dropWhile (· ≠ '.') = '.' :: lastDigits places n := by
    rw [pointText, List.dropWhile_append_of_pos fun c hc => ?_]
    · rfl
    · rw [decide_eq_true_eq]
      exact fun heq => hwholepoint (heq ▸ hc)
  have hfilter : (pointText places n).filter Char.isDigit
      = digitsOf (n / 10 ^ places) ++ lastDigits places n := by
    rw [pointText, List.filter_append, List.filter_eq_self.mpr hwhole,
      List.filter_cons_of_neg (by decide), List.filter_eq_self.mpr hfraction]
  have hcount : ('.' :: lastDigits places n).countP Char.isDigit = places := by
    rw [List.countP_cons_of_neg (by decide), List.countP_eq_length.mpr hfraction,
      length_lastDigits]
  refine ⟨isDecimal_pointText places n, ?_, ?_⟩
  · rw [Swatch.holdsNumber, pointText, List.any_append, any_isDigit hwhole, List.count_append,
      List.count_cons_self, List.count_eq_zero_of_not_mem hwholepoint,
      List.count_eq_zero_of_not_mem hfractionpoint]
    simp [(isRun_digitsOf _).1]
  · rw [decimalValue, hrest, hfilter, hcount, digitsValue_pointDigits]

lemma denotes_numberText (places n : Nat) : Denotes (numberText places n) (n / 10 ^ places) := by
  rw [numberText]
  split_ifs with hzero
  · rw [hzero, pow_zero, div_one]
    exact denotes_digitsOf n
  · exact denotes_pointText places n

/-- What is shown denotes the number of units. -/
theorem Shows.denotes {places n : Nat} {s : Text} (h : Shows places n s) :
    Denotes s (n / 10 ^ places) := by
  obtain ⟨kept, m, hvalue, rfl⟩ := h.exists_numberText
  rw [hvalue]
  exact denotes_numberText kept m

/-! ### What is left out -/

/-- Two places are left out together. -/
theorem shows_dropEnd (n : Nat) : Shows 2 n (Text.dropEnd ".00".toList (pointText 2 n)) := by
  rcases Text.dropEnd_cases ".00".toList (pointText 2 n) with hsame | hsplit
  · rw [hsame]
    exact shows_pointText two_pos n
  · have hpoint : pointText 2 n = digitsOf (n / 10 ^ 2) ++ '.' :: lastDigits 2 n := rfl
    have hlength : ('.' :: lastDigits 2 n).length = ".00".toList.length := by
      rw [List.length_cons, length_lastDigits]
      rfl
    obtain ⟨hwhole, hlast⟩ := List.append_inj' (hpoint.symm.trans hsplit) hlength
    have hending : ".00".toList = ['.', '0', '0'] := rfl
    have hmod : n % 10 ^ 2 = 0 := by
      have hdigits := ofDigitChars_lastDigits 2 n 0
      rw [(List.cons.inj (hlast.trans hending)).2, Nat.mul_zero, Nat.zero_add] at hdigits
      exact hdigits.symm.trans (by decide)
    refine ⟨0, n / 10 ^ 2, Nat.zero_le 2, ?_, ?_⟩
    · exact (Nat.div_mul_cancel (Nat.dvd_of_mod_eq_zero hmod)).symm
    · rw [numberText, if_pos rfl, hwhole]

/-- The zeros at the end of a fraction are left out one by one, and at last the point. -/
lemma exists_trimEnd (places n : Nat) : ∃ kept m, kept ≤ places ∧ n = m * 10 ^ (places - kept) ∧
    (kept ≠ 0 → m % 10 ≠ 0) ∧ digitsOf (n / 10 ^ places)
      ++ Text.dropEnd ['.'] (Text.trimEnd (· = '0') ('.' :: lastDigits places n))
        = numberText kept m := by
  induction places generalizing n with
  | zero =>
      refine ⟨0, n, le_rfl, ?_, fun h => absurd rfl h, ?_⟩
      · rw [Nat.pow_zero, Nat.mul_one]
      · rw [Nat.pow_zero, Nat.div_one, numberText, if_pos rfl, lastDigits]
        exact List.append_nil _
  | succ places ih =>
      rw [lastDigits, ← List.cons_append, Text.trimEnd_append_singleton]
      by_cases hlast : n % 10 = 0
      · obtain ⟨kept, m, hkept, hm, hmin, hs⟩ := ih (n / 10)
        rw [hlast, if_pos (by decide), Nat.pow_succ', ← Nat.div_div_eq_div_mul, hs]
        refine ⟨kept, m, Nat.le_succ_of_le hkept, ?_, hmin, rfl⟩
        rw [Nat.succ_sub hkept, Nat.pow_succ, ← Nat.mul_assoc, ← hm]
        exact (Nat.div_mul_cancel (Nat.dvd_of_mod_eq_zero hlast)).symm
      · obtain ⟨hdigit, hpoint⟩ := digitChar_mod_ten hlast
        rw [if_neg (by simpa using hdigit), Text.dropEnd_singleton_append hpoint]
        refine ⟨places + 1, n, le_rfl, ?_, fun _ => hlast, ?_⟩
        · rw [Nat.sub_self, Nat.pow_zero, Nat.mul_one]
        · rw [numberText, if_neg (Nat.succ_ne_zero places)]
          rfl

/-- A number is shown without the zeros at the end of its fraction. -/
lemma exists_trimFraction (places n : Nat) : ∃ kept m, kept ≤ places ∧
    n = m * 10 ^ (places - kept) ∧ (kept ≠ 0 → m % 10 ≠ 0) ∧
      Oklch.trimFraction (pointText places n) = numberText kept m := by
  have hspan : Text.span (· ≠ '.') (pointText places n)
      = (digitsOf (n / 10 ^ places), '.' :: lastDigits places n) :=
    Text.span_of_notMem (point_notMem_of_digits (isRun_digitsOf _).2) _
  rw [Oklch.trimFraction, hspan]
  exact exists_trimEnd places n

/-- The fraction is shown without the zeros at its end. -/
theorem shows_trimFraction (places n : Nat) :
    Shows places n (Oklch.trimFraction (pointText places n)) := by
  obtain ⟨kept, m, hkept, hm, -, hs⟩ := exists_trimFraction places n
  exact ⟨kept, m, hkept, hm, hs⟩

/-! ### Texts without zeros at the end -/

/-- Digits and points with no zero at the end of a fraction and no point at the end. -/
structure IsTrimmed (s : Text) : Prop where
  isDecimal : IsDecimal s
  exponent : 'e' ∉ s ∧ 'E' ∉ s
  point : s.getLast? ≠ some '.'
  zero : '.' ∈ s → s.getLast? ≠ some '0'

lemma isTrimmed_numberText {kept m : Nat} (h : kept ≠ 0 → m % 10 ≠ 0) :
    IsTrimmed (numberText kept m) := by
  have hdecimal := isDecimal_numberText kept m
  have hexponent : 'e' ∉ numberText kept m ∧ 'E' ∉ numberText kept m :=
    ⟨hdecimal.notMem (by decide), hdecimal.notMem (by decide)⟩
  cases kept with
  | zero =>
      have hpoint : '.' ∉ numberText 0 m := point_notMem_of_digits (isRun_digitsOf m).2
      exact ⟨hdecimal, hexponent, fun hlast => hpoint (List.mem_of_getLast? hlast),
        fun hmem => absurd hmem hpoint⟩
  | succ kept =>
      obtain ⟨hdigit, hpoint⟩ := digitChar_mod_ten (h (Nat.succ_ne_zero kept))
      have hlast : (numberText (kept + 1) m).getLast? = some (Nat.digitChar (m % 10)) := by
        rw [numberText, if_neg (Nat.succ_ne_zero kept), pointText, lastDigits, ← List.cons_append,
          ← List.append_assoc, List.getLast?_concat]
      refine ⟨hdecimal, hexponent, ?_, fun _ => ?_⟩
      · rw [hlast]
        exact fun heq => hpoint (Option.some.inj heq)
      · rw [hlast]
        exact fun heq => hdigit (Option.some.inj heq)

theorem isTrimmed_trimFraction (places n : Nat) :
    IsTrimmed (Oklch.trimFraction (pointText places n)) := by
  obtain ⟨kept, m, -, -, hmin, hs⟩ := exists_trimFraction places n
  rw [hs]
  exact isTrimmed_numberText hmin

/-- Two places without the zeros at their end are hundredths. -/
lemma trimFraction_hundredths (n : Nat) :
    Oklch.trimFraction (pointText 2 n) = hundredthsText n := by
  obtain ⟨kept, m, hkept, hm, hmin, hs⟩ := exists_trimFraction 2 n
  rw [hs, hundredthsText]
  interval_cases kept
  · rw [if_pos (by omega), tenthsText, if_pos (by omega)]
    exact congrArg digitsOf (by omega)
  · have hlast := hmin one_ne_zero
    rw [if_pos (by omega), tenthsText, if_neg (by omega)]
    exact congrArg (pointText 1) (by omega)
  · have hlast := hmin two_ne_zero
    rw [if_neg (by omega)]
    exact congrArg (pointText 2) (by omega)

/-- What an alpha loses at its end it loses at the end of its fraction. -/
lemma trimAlpha_pointText (places n : Nat) : Oklch.trimAlpha (pointText places n)
    = Text.withoutLeadingZero (Oklch.trimFraction (pointText places n)) := by
  have hspan : Text.span (· ≠ '.') (pointText places n)
      = (digitsOf (n / 10 ^ places), '.' :: lastDigits places n) :=
    Text.span_of_notMem (point_notMem_of_digits (isRun_digitsOf _).2) _
  obtain ⟨t, ht⟩ : ∃ t, ∀ s, Text.trimEnd (· = '0') (s ++ '.' :: lastDigits places n)
      = s ++ '.' :: t := Text.exists_trimEnd_append_cons (by decide) _
  have hfraction := ht []
  rw [List.nil_append, List.nil_append] at hfraction
  have hwhole : Text.dropEnd ['.'] (Text.trimEnd (· = '0') (pointText places n))
      = digitsOf (n / 10 ^ places)
        ++ Text.dropEnd ['.'] (Text.trimEnd (· = '0') ('.' :: lastDigits places n)) := by
    rw [pointText, ht, hfraction, Text.dropEnd_append_cons]
  rw [Oklch.trimAlpha, Oklch.trimFraction, hspan, hwhole]
  rfl

/-! ### A zero before the point -/

/-- A zero in front makes no difference to the number of digits and points. -/
lemma readNumber_zero_cons {s : Text} (hs : IsDecimal s) (hnumber : holdsNumber s = true) :
    readNumber ('0' :: s) = readNumber s := by
  have hcons : IsDecimal ('0' :: s) :=
    ⟨List.cons_ne_nil _ _, List.forall_mem_cons.mpr ⟨by decide, hs.2⟩⟩
  have hholds : holdsNumber ('0' :: s) = true := by
    rw [holdsNumber, Bool.and_eq_true] at hnumber ⊢
    exact ⟨by simp, by simpa using hnumber.2⟩
  have hnumeral : decimalNumeral ('0' :: s) = decimalNumeral s := by
    rw [decimalNumeral, decimalNumeral, List.filter_cons_of_pos (by decide),
      List.dropWhile_cons_of_pos (by decide), digitsValue, Nat.ofDigitChars_cons]
    rfl
  rw [readNumber_of_isDecimal hcons, readNumber_of_isDecimal hs, hholds, hnumber, hnumeral,
    if_pos rfl, if_pos rfl]

/-- A trimmed text without the zero before its point is trimmed too, and the same number. -/
theorem IsTrimmed.withoutLeadingZero {s : Text} (h : IsTrimmed s) {x : Binary64}
    (hx : readNumber s = .ok x) : IsTrimmed (Text.withoutLeadingZero s) ∧
      readNumber (Text.withoutLeadingZero s) = .ok x := by
  rw [Text.withoutLeadingZero.eq_def]
  split
  · next rest =>
    have hlast : ('0' :: '.' :: rest).getLast? = ('.' :: rest).getLast? := List.getLast?_cons_cons
    have hmem : ∀ c ∈ '.' :: rest, c ∈ '0' :: '.' :: rest := fun c hc => List.mem_cons_of_mem _ hc
    have hdecimal : IsDecimal ('.' :: rest) :=
      ⟨List.cons_ne_nil _ _, fun c hc => h.isDecimal.2 c (hmem c hc)⟩
    have hpoint := h.point
    have hzero := h.zero (by simp)
    rw [hlast] at hpoint hzero
    have hnumber : holdsNumber ('.' :: rest) = true := by
      have hholds : holdsNumber ('0' :: '.' :: rest) = true := by
        by_contra hnot
        rw [readNumber_of_isDecimal h.isDecimal, if_neg hnot] at hx
        exact absurd hx (by simp)
      rw [holdsNumber, Bool.and_eq_true] at hholds ⊢
      -- the last character is a digit, as it is no point
      obtain ⟨d, hd⟩ : ∃ d, ('.' :: rest).getLast? = some d :=
        ⟨_, List.getLast?_eq_some_getLast (List.cons_ne_nil _ _)⟩
      have hdigit : d.isDigit = true := by
        have hchar := hdecimal.2 d (List.mem_of_getLast? hd)
        rw [isDecimalChar, Bool.or_eq_true, decide_eq_true_eq] at hchar
        exact hchar.resolve_right fun heq => hpoint (heq ▸ hd)
      exact ⟨List.any_eq_true.mpr ⟨d, List.mem_of_getLast? hd, hdigit⟩, by simpa using hholds.2⟩
    rw [readNumber_zero_cons hdecimal hnumber] at hx
    exact ⟨⟨hdecimal, ⟨fun he => h.exponent.1 (hmem _ he), fun he => h.exponent.2 (hmem _ he)⟩,
      hpoint, fun _ => hzero⟩, hx⟩
  · exact ⟨h, hx⟩

end Decimal

/-- A number that is not negative is rounded, shown and read again: what is read is off by half of
the last place, and by one rounding. -/
theorem Binary64.exists_shown {k places : Nat} {x : Binary64} (hx : Between 0 k x)
    (hpos : 0 < places) (hplaces : places ≤ 6) (hk : k ≤ 512) {shown : Text → Text}
    (hshown : ∀ n, Shows places n (shown (pointText places n))) :
    ∃ n y, x.fixedText places = .ok (pointText places n) ∧ n ≤ k * 10 ^ places ∧
      readNumber (shown (pointText places n)) = .ok y ∧ Between 0 k y ∧
      |y.value - x.value| ≤ 1 / 2 / 10 ^ places + roundoff := by
  have hsize : k * 10 ^ places + 1 < 10 ^ maxDigits := by
    have hdigits : maxDigits = 28 := rfl
    rw [hdigits]
    calc k * 10 ^ places + 1 ≤ 512 * 10 ^ 6 + 1 := by
          have := Nat.mul_le_mul hk (Nat.pow_le_pow_right (by norm_num : 0 < 10) hplaces)
          omega
      _ < 10 ^ 28 := by norm_num
  obtain ⟨n, htext, hn, hlow, hhigh⟩ := exists_fixedText_eq hx hplaces hsize
  rw [scaledText_neg hpos hplaces] at htext
  obtain ⟨y, hy, hround⟩ := (hshown n).exists_readNumber
  have hten : (0 : ℚ) < 10 ^ places := by positivity
  have hnk : (n : ℚ) / 10 ^ places ≤ k := by
    rw [div_le_iff₀ hten]
    exact_mod_cast hn
  have hnonneg : (0 : ℚ) ≤ n / 10 ^ places := by positivity
  have hkq : (k : ℚ) ≤ 512 := by exact_mod_cast hk
  have hzero : Representable (0 : ℚ) := by
    exact_mod_cast representable_natCast (n := 0) (by norm_num)
  have hmem := hround.between hzero (representable_natCast (hk.trans (by norm_num))) hnonneg hnk
  have herror : |y.value - n / 10 ^ places| ≤ roundoff := by
    have hnear := hround.near (k := 0) (q := (n : ℚ) / 10 ^ places) (by simp) (by norm_num)
      (abs_le.mpr ⟨by linarith, by linarith⟩)
    simpa using hnear.abs_sub_le
  have hplace : |(n : ℚ) / 10 ^ places - x.value| ≤ 1 / 2 / 10 ^ places := by
    have hsplit : (n : ℚ) / 10 ^ places - x.value = (n - x.value * 10 ^ places) / 10 ^ places := by
      field_simp
    rw [hsplit, abs_div, abs_of_pos hten]
    refine div_le_div_of_nonneg_right (abs_le.mpr ⟨?_, ?_⟩) hten.le <;> linarith
  refine ⟨n, y, htext, hn, hy, hmem, ?_⟩
  calc |y.value - x.value| ≤ |y.value - n / 10 ^ places| + |(n : ℚ) / 10 ^ places - x.value| :=
        abs_sub_le _ _ _
    _ ≤ 1 / 2 / 10 ^ places + roundoff := by linarith

end Swatch
