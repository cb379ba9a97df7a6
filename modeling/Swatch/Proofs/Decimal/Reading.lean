import Swatch.Proofs.Decimal.Numeral
/-!
Which texts of components are numbers, and which numbers they are.

* `integerValue`, `readInteger_of_isInteger`: an integer is read unless it has too many digits.
* `holdsNumber`, `decimalNumeral`: whether digits and points are a number, and the numeral that they
  are.
* `Numeral.decimal?_eq`: the reader of numerals, by the points it meets: none, one, or more.
* `readNumber_of_isDecimal`: digits and points are read if they hold a digit and at most one point.
-/

namespace Swatch

open Binary64 Parts

/-! ### Integers -/

/-- The integer of digits with a minus sign that may stand in front. -/
def integerValue (s : Text) : ℤ :=
  let n := digitsValue (s.filter Char.isDigit)
  if '-' ∈ s then -n else n

/-- An integer is read unless it has too many digits. -/
theorem readInteger_of_isInteger {s : Text} (hs : IsInteger s) :
    readInteger s = if maxIntegerDigits < s.countP Char.isDigit
      then .error (.tooManyDigits (s.countP Char.isDigit)) else .ok (integerValue s) := by
  cases hs with
  | plain h =>
      have hcount : s.countP Char.isDigit = s.length := List.countP_eq_length.mpr h.2
      have hminus : '-' ∉ s := h.notMem (by decide)
      rw [readInteger, splitSign_of_notMem hminus (h.notMem (by decide)), hcount, integerValue,
        List.filter_eq_self.mpr h.2, if_neg hminus]
      rfl
  | @negative digits h =>
      have hcount : ('-' :: digits).countP Char.isDigit = digits.length := by
        rw [List.countP_cons_of_neg (by decide)]
        exact List.countP_eq_length.mpr h.2
      rw [readInteger, splitSign, hcount, integerValue, List.filter_cons_of_neg (by decide),
        List.filter_eq_self.mpr h.2, if_pos List.mem_cons_self]
      rfl

lemma readInteger_eq_ok_iff {s : Text} (hs : IsInteger s) {n : ℤ} :
    readInteger s = .ok n ↔ s.countP Char.isDigit ≤ maxIntegerDigits ∧ n = integerValue s := by
  rw [readInteger_of_isInteger hs]
  split_ifs with hmany
  · exact iff_of_false (by simp) fun h => absurd h.1 (not_le.mpr hmany)
  · rw [Except.ok.injEq, eq_comm, and_iff_right (not_lt.mp hmany)]

/-! ### Digits and points -/

/-- The numeral of digits and a point: all digits, the power of ten by those behind the point. -/
def decimalNumeral (s : Text) : Numeral :=
  .decimal false (digitsValue (s.filter Char.isDigit))
    (-((s.dropWhile (· ≠ '.')).countP Char.isDigit : ℕ))

/-- Whether digits and points hold a digit, and at most one point. -/
def holdsNumber (s : Text) : Bool := s.any Char.isDigit && s.count '.' ≤ 1

/-- No point is among digits. -/
lemma point_notMem_of_digits {s : Text} (hs : ∀ c ∈ s, c.isDigit) : '.' ∉ s :=
  fun hmem => absurd (hs _ hmem) (by decide)

/-- A run of digits holds a digit if it is not empty. -/
lemma any_isDigit {s : Text} (hs : ∀ c ∈ s, c.isDigit) : s.any Char.isDigit = !s.isEmpty := by
  cases s with
  | nil => rfl
  | cons c s => simp [hs c (by simp)]

/-- Of digits and points, what does not begin with a digit begins with a point. -/
lemma eq_point_of_stops {c : Char} {s : Text} (hc : isDecimalChar c)
    (hstop : Text.Stops Char.isDigit (c :: s)) : c = '.' := by
  have hdigit := Text.stops_cons.mp hstop
  rw [isDecimalChar, hdigit, Bool.false_or, decide_eq_true_eq] at hc
  exact hc

namespace Numeral

/-- Digits alone are a numeral. -/
lemma decimal?_digits {s : Text} (hs : ∀ c ∈ s, c.isDigit) :
    decimal? false s = if s = [] then none else some (decimalNumeral s) := by
  have hspan : Text.span Char.isDigit s = (s, []) :=
    Text.span_eq_iff.mpr ⟨(List.append_nil s).symm, hs, Text.stops_nil _⟩
  have hpoint : s.dropWhile (· ≠ '.') = [] := by
    rw [List.dropWhile_eq_nil_iff]
    exact fun c hc => decide_eq_true (ne_of_mem_of_not_mem hc (point_notMem_of_digits hs))
  simp only [decimal?, hspan, List.append_nil]
  rw [decimalNumeral, List.filter_eq_self.mpr hs, hpoint]
  simp [exponent?]

/-- Digits with one point are a numeral. -/
lemma decimal?_point {whole fraction : Text} (hwhole : ∀ c ∈ whole, c.isDigit)
    (hfraction : ∀ c ∈ fraction, c.isDigit) : decimal? false (whole ++ '.' :: fraction)
      = if whole ++ fraction = [] then none
        else some (decimalNumeral (whole ++ '.' :: fraction)) := by
  have hspan : Text.span Char.isDigit (whole ++ '.' :: fraction) = (whole, '.' :: fraction) :=
    Text.span_eq_iff.mpr ⟨rfl, hwhole, Text.stops_cons.mpr (by decide)⟩
  have hspan' : Text.span Char.isDigit fraction = (fraction, []) :=
    Text.span_eq_iff.mpr ⟨(List.append_nil _).symm, hfraction, Text.stops_nil _⟩
  have hpoint : (whole ++ '.' :: fraction).dropWhile (· ≠ '.') = '.' :: fraction :=
    congrArg Prod.snd (Text.span_of_notMem (point_notMem_of_digits hwhole) fraction)
  have hcount : ('.' :: fraction).countP Char.isDigit = fraction.length := by
    rw [List.countP_cons_of_neg (by decide)]
    exact List.countP_eq_length.mpr hfraction
  simp only [decimal?, hspan, hspan']
  rw [decimalNumeral, hpoint, hcount, List.filter_append, List.filter_cons_of_neg (by decide),
    List.filter_eq_self.mpr hwhole, List.filter_eq_self.mpr hfraction]
  simp [exponent?]

/-- A second point ends the numeral, and is no exponent. -/
lemma decimal?_points {whole fraction rest : Text} (hwhole : ∀ c ∈ whole, c.isDigit)
    (hfraction : ∀ c ∈ fraction, c.isDigit) :
    decimal? false (whole ++ '.' :: (fraction ++ '.' :: rest)) = none := by
  have hspan : Text.span Char.isDigit (whole ++ '.' :: (fraction ++ '.' :: rest))
      = (whole, '.' :: (fraction ++ '.' :: rest)) :=
    Text.span_eq_iff.mpr ⟨rfl, hwhole, Text.stops_cons.mpr (by decide)⟩
  have hspan' : Text.span Char.isDigit (fraction ++ '.' :: rest) = (fraction, '.' :: rest) :=
    Text.span_eq_iff.mpr ⟨rfl, hfraction, Text.stops_cons.mpr (by decide)⟩
  simp only [decimal?, hspan, hspan']
  simp [exponent?]

/-- Digits and points are a numeral if there is a digit and at most one point. -/
theorem decimal?_eq {s : Text} (hs : ∀ c ∈ s, isDecimalChar c) :
    decimal? false s = if holdsNumber s then some (decimalNumeral s) else none := by
  obtain ⟨whole, rest, hspan⟩ : ∃ whole rest, Text.span Char.isDigit s = (whole, rest) :=
    ⟨_, _, rfl⟩
  obtain ⟨rfl, hwhole, hstop⟩ := Text.span_eq_iff.mp hspan
  have hcount := List.count_eq_zero.mpr (point_notMem_of_digits hwhole)
  cases rest with
  | nil =>
      rw [List.append_nil, decimal?_digits hwhole, holdsNumber, any_isDigit hwhole, hcount]
      cases whole <;> simp
  | cons c rest =>
      obtain rfl : c = '.' := eq_point_of_stops (hs c (by simp)) hstop
      obtain ⟨fraction, tail, hspan'⟩ : ∃ fraction tail,
        Text.span Char.isDigit rest = (fraction, tail) := ⟨_, _, rfl⟩
      obtain ⟨rfl, hfraction, hstop'⟩ := Text.span_eq_iff.mp hspan'
      have hcount' := List.count_eq_zero.mpr (point_notMem_of_digits hfraction)
      cases tail with
      | nil =>
          have hany : (whole ++ '.' :: fraction).any Char.isDigit
              = !(whole ++ fraction).isEmpty := by
            rw [List.any_append, List.any_cons, any_isDigit hwhole, any_isDigit hfraction]
            cases whole <;> simp
          rw [List.append_nil, decimal?_point hwhole hfraction, holdsNumber, hany,
            List.count_append, List.count_cons_self, hcount, hcount']
          cases hempty : whole ++ fraction <;> simp
      | cons d tail =>
          obtain rfl : d = '.' := eq_point_of_stops (hs d (by simp)) hstop'
          have hmany : ¬ (whole ++ '.' :: (fraction ++ '.' :: tail)).count '.' ≤ 1 := by
            simp only [List.count_append, List.count_cons_self]
            omega
          rw [decimal?_points hwhole hfraction, holdsNumber, decide_eq_false hmany, Bool.and_false]
          rfl

end Numeral

/-- Digits and points are a number if there is a digit and at most one point. -/
theorem readNumber_of_isDecimal {s : Text} (hs : IsDecimal s) :
    readNumber s = if holdsNumber s then .ok (decimalNumeral s).toBinary64
      else .error (.notNumber s) := by
  rw [readNumber, Numeral.read?_of_isDecimal hs, Numeral.decimal?_eq hs.2]
  split_ifs <;> rfl

end Swatch
