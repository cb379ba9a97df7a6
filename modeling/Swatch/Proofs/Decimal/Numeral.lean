import Swatch.Decimal.Numeral
import Swatch.Proofs.Binary64.Integer
import Swatch.Proofs.Form.Parts
import Swatch.Proofs.Text.Letter
/-!
Numerals as colours hold them: digits and points, without a sign.

* `bind_eq_ok`, `map_eq_ok`: what steps that may fail come to.
* `Binary64.Unsigned`: a number without a sign, which may be infinite.
* `Numeral.read?_of_isDecimal`: of digits and points nothing is read but a decimal.
* `unsigned_of_readNumber`, `unsigned_of_readAlpha`: its number carries no sign.
* `readAlpha_of_isDecimal`, `readAlpha_append`: an alpha is taken as it is, or divided if it has a
  percent sign.
* `isInteger_integerText`, `readInteger_integerText`: the text of an integer is one, and is read as
  that integer.
-/

namespace Swatch

open Binary64 Parts

/-! ### Steps that may fail -/

section Steps

variable {α β : Type}

lemma bind_eq_ok {x : Except Fault α} {f : α → Except Fault β} {b : β} :
    x >>= f = .ok b ↔ ∃ a, x = .ok a ∧ f a = .ok b := by
  cases x with
  | error fault => simp [bind, Except.bind]
  | ok a => simp [bind, Except.bind]

lemma map_eq_ok {x : Except Fault α} {f : α → β} {b : β} :
    f <$> x = .ok b ↔ ∃ a, x = .ok a ∧ f a = b := by
  cases x with
  | error fault => simp [Functor.map, Except.map]
  | ok a => simp [Functor.map, Except.map]

/-- What is handed on as found was found. -/
lemma map_some_eq_ok {x : Except Fault α} {a : α} : some <$> x = .ok (some a) ↔ x = .ok a := by
  rw [map_eq_ok]
  constructor
  · rintro ⟨a', hx, heq⟩
    rw [hx, Option.some.inj heq]
  · exact fun hx => ⟨a, hx, rfl⟩

end Steps

/-! ### Numbers without a sign -/

namespace Binary64

/-- A number carries no sign.  It may be infinite. -/
def Unsigned : Binary64 → Prop
  | .nan => False
  | .infinity negative => negative = false
  | .finite negative _ _ => negative = false

lemma unsigned_round (num den : Nat) : (round false num den).Unsigned := by
  rw [round]
  split_ifs <;> rfl

lemma Unsigned.div {x y : Binary64} (hx : x.Unsigned) (hy : 0 < y.value) : (x / y).Unsigned := by
  obtain ⟨v, hv, rfl⟩ := exists_of_value_pos hy
  have hv0 : v ≠ 0 := by
    rintro rfl
    exact absurd hy (by simp [value])
  cases x with
  | nan => exact absurd hx id
  | infinity negative =>
      cases hx
      rfl
  | finite negative u hu =>
      cases hx
      change Unsigned (if v = 0 then (if u = 0 then .nan else .infinity (false != false))
        else round (false != false) (u * unitsPerOne) v)
      rw [if_neg hv0]
      exact unsigned_round _ _

/-- A number without a sign is not negative. -/
lemma Unsigned.nonneg {x : Binary64} (hx : x.Unsigned) : 0 ≤ x := by
  cases x with
  | nan => exact absurd hx id
  | infinity negative =>
      cases hx
      exact le_infinity (isFinite_ofNat (by norm_num))
  | finite negative u hu =>
      cases hx
      rw [le_iff (isFinite_ofNat (by norm_num)) rfl, value_ofNat (by norm_num), value, signed_false]
      push_cast
      positivity

end Binary64

/-! ### Digits and points -/

lemma mem_of_mem_head?_reverse {s : Text} {c : Char} (h : c ∈ s.reverse.head?) : c ∈ s :=
  List.mem_reverse.mp (List.mem_of_mem_head? h)

/-- ASCII characters that are no blanks are taken as they are. -/
lemma numeralText_eq_self {s : Text} (h : ∀ c ∈ s, c.toNat < 128 ∧ isAsciiBlank c = false) :
    numeralText s = s := by
  have hmap : s.map numeralChar = s := by
    refine (List.map_congr_left fun c hc => ?_).trans (List.map_id s)
    exact if_pos (h c hc).1
  rw [numeralText, hmap]
  exact Text.trim_eq_self (fun c hc => (h c (List.mem_of_mem_head? hc)).2)
    (fun c hc => (h c (mem_of_mem_head?_reverse hc)).2)

lemma joinDigits?_of_notMem {s : Text} (h : '_' ∉ s) (afterDigit : Bool) :
    joinDigits? afterDigit s = some s := by
  induction s generalizing afterDigit with
  | nil => rfl
  | cons c s ih =>
      rw [List.mem_cons, not_or] at h
      rw [joinDigits?, ih h.2, Option.map_some]
      exact fun hc => h.1 hc.symm

lemma splitSign_of_notMem {s : Text} (hminus : '-' ∉ s) (hplus : '+' ∉ s) :
    splitSign s = (false, s) := by
  cases s with
  | nil => rfl
  | cons c s =>
      rw [List.mem_cons, not_or] at hminus hplus
      rw [splitSign]
      · exact fun t heq => hminus.1 (List.cons.inj heq).1.symm
      · exact fun t heq => hplus.1 (List.cons.inj heq).1.symm

lemma isDecimalChar_iff {c : Char} :
    isDecimalChar c = true ↔ 48 ≤ c.toNat ∧ c.toNat ≤ 57 ∨ c.toNat = 46 := by
  have hdot : '.'.toNat = 46 := rfl
  rw [isDecimalChar, Bool.or_eq_true, decide_eq_true_eq, isDigit_iff, ← Char.toNat_inj, hdot]

lemma isAsciiBlank_of_isDecimalChar {c : Char} (h : isDecimalChar c = true) :
    c.toNat < 128 ∧ isAsciiBlank c = false := by
  have hspace : ' '.toNat = 32 := rfl
  rw [isDecimalChar_iff] at h
  refine ⟨by omega, ?_⟩
  rw [isAsciiBlank, Bool.or_eq_false_iff, beq_eq_false_iff_ne, ne_eq, ← Char.toNat_inj, hspace]
  refine ⟨?_, by omega⟩
  rw [Bool.and_eq_false_iff, decide_eq_false_iff_not, decide_eq_false_iff_not]
  omega

namespace Numeral

/-- Of digits and points nothing is read but a decimal without a sign. -/
lemma read?_of_isDecimal {s : Text} (hs : IsDecimal s) : read? s = decimal? false s := by
  have hplain := numeralText_eq_self fun c hc => isAsciiBlank_of_isDecimalChar (hs.2 c hc)
  have hnotMem {c : Char} (hc : isDecimalChar c = false) : c ∉ s := IsRun.notMem hs hc
  have hlower : s.map Char.toLower = s := by
    refine (List.map_congr_left fun c hc => ?_).trans (List.map_id s)
    have hl := toNat_toLower c
    have hdecimal := isDecimalChar_iff.mp (hs.2 c hc)
    rw [if_neg (by omega)] at hl
    exact Char.toNat_inj.mp hl
  have hword {w : Text} (c : Char) (hc : c ∈ w) (hdecimal : isDecimalChar c = false) : s ≠ w := by
    rintro rfl
    exact hnotMem hdecimal hc
  rw [read?, hplain, joinDigits?_of_notMem (hnotMem (by decide))]
  simp only [Option.bind_eq_bind, Option.bind_some, splitSign_of_notMem (hnotMem (by decide))
    (hnotMem (by decide)), hlower]
  rw [if_neg, if_neg]
  · exact hword 'n' (by decide) (by decide)
  · rw [Bool.or_eq_true, decide_eq_true_eq, decide_eq_true_eq, not_or]
    exact ⟨hword 'n' (by decide) (by decide), hword 'n' (by decide) (by decide)⟩

/-- The sign of a decimal is the one that was read before it. -/
lemma decimal?_eq_some {negative : Bool} {s : Text} {numeral : Numeral}
    (h : decimal? negative s = some numeral) : ∃ d e, numeral = .decimal negative d e := by
  simp only [decimal?] at h
  split at h <;> split_ifs at h <;>
    (obtain ⟨e, -, rfl⟩ := Option.map_eq_some_iff.mp h; exact ⟨_, _, rfl⟩)

lemma unsigned_toBinary64 (d : Nat) (e : ℤ) : (toBinary64 (.decimal false d e)).Unsigned := by
  rw [toBinary64]
  split_ifs
  · rfl
  · rfl
  · exact unsigned_round _ _

end Numeral

/-- The number of digits and points carries no sign. -/
theorem unsigned_of_readNumber {s : Text} {x : Binary64} (hs : IsDecimal s)
    (h : readNumber s = .ok x) : x.Unsigned := by
  rw [readNumber, Numeral.read?_of_isDecimal hs] at h
  split at h
  · next numeral hread =>
    obtain ⟨d, e, rfl⟩ := Numeral.decimal?_eq_some hread
    rw [← Except.ok.inj h]
    exact Numeral.unsigned_toBinary64 d e
  · exact absurd h (by simp)

/-! ### Alphas -/

/-- No percent sign ends a number. -/
lemma endsWith_percent_of_isDecimal {s : Text} (hs : IsDecimal s) :
    Text.endsWith '%' s = false := by
  rw [Text.endsWith, beq_eq_false_iff_ne]
  exact fun hlast => IsRun.notMem hs (by decide) (List.mem_of_getLast? hlast)

/-- A percentage is read without its sign, and divided. -/
lemma readPercentage_append {s : Text} (hs : IsDecimal s) :
    readPercentage (s ++ ['%']) = (· / 100) <$> readNumber s := by
  have hfilter : (s ++ ['%']).filter (· ≠ '%') = s := by
    have hself : s.filter (· ≠ '%') = s := by
      refine List.filter_eq_self.mpr fun c hc => decide_eq_true ?_
      exact ne_of_mem_of_not_mem hc (IsRun.notMem hs (by decide))
    rw [List.filter_append, hself]
    exact List.append_nil s
  rw [readPercentage, hfilter]
  rfl

/-- An alpha without a percent sign is taken as it is written. -/
lemma readAlpha_of_isDecimal {s : Text} (hs : IsDecimal s) :
    readAlpha (some s) = some <$> readNumber s := by
  rw [readAlpha, endsWith_percent_of_isDecimal hs]
  rfl

/-- An alpha with a percent sign is divided. -/
lemma readAlpha_append {s : Text} (hs : IsDecimal s) :
    readAlpha (some (s ++ ['%'])) = (fun x => some (x / 100)) <$> readNumber s := by
  have hend : Text.endsWith '%' (s ++ ['%']) = true := by simp [Text.endsWith]
  rw [readAlpha, hend, if_pos rfl, readPercentage_append hs]
  cases readNumber s <;> rfl

/-- An alpha as it is read from a function carries no sign. -/
theorem unsigned_of_readAlpha {s : Text} {a : Binary64} (hs : IsPercentage s)
    (h : readAlpha (some s) = .ok (some a)) : a.Unsigned := by
  cases hs with
  | plain hs =>
      rw [readAlpha_of_isDecimal hs] at h
      exact unsigned_of_readNumber hs (map_some_eq_ok.mp h)
  | percent hs =>
      rw [readAlpha_append hs] at h
      obtain ⟨x, hx, ha⟩ := map_eq_ok.mp h
      have hundred : (0 : ℚ) < (100 : Binary64).value := by
        rw [value_ofNat (by norm_num)]
        norm_num
      rw [← Option.some.inj ha]
      exact (unsigned_of_readNumber hs hx).div hundred

/-! ### Integers -/

lemma isRun_digitsOf (n : Nat) : IsRun Char.isDigit (Decimal.digitsOf n) :=
  ⟨Nat.toDigits_ne_nil, fun _ hc => Nat.isDigit_of_mem_toDigits (by norm_num) (by norm_num) hc⟩

/-- The text of an integer is one. -/
lemma isInteger_integerText (n : ℤ) : IsInteger (integerText n) := by
  rw [integerText, withSign]
  split_ifs
  · exact .negative (isRun_digitsOf _)
  · exact .plain (isRun_digitsOf _)

/-- The text of an integer is read as that integer, if it is not too long. -/
theorem readInteger_integerText {n : ℤ} (h : n.natAbs < 10 ^ maxIntegerDigits) :
    readInteger (integerText n) = .ok n := by
  have hvalue : digitsValue (Decimal.digitsOf n.natAbs) = n.natAbs := Nat.ofDigitChars_ten_toDigits
  have hlength : ¬ maxIntegerDigits < (Decimal.digitsOf n.natAbs).length := by
    rw [not_lt]
    exact (Nat.length_toDigits_le_iff (by norm_num) (by decide)).mpr h
  have hnotMem {c : Char} (hc : c.isDigit = false) : c ∉ Decimal.digitsOf n.natAbs :=
    (isRun_digitsOf _).notMem hc
  rw [integerText, withSign]
  split_ifs with hneg
  · rw [decide_eq_true_eq] at hneg
    simp only [readInteger, splitSign, if_neg hlength, if_true, hvalue]
    congr 1
    omega
  · rw [decide_eq_true_eq] at hneg
    simp only [readInteger, splitSign_of_notMem (hnotMem (by decide)) (hnotMem (by decide)),
      if_neg hlength, hvalue, Bool.false_eq_true, if_false]
    congr 1
    omega

end Swatch
