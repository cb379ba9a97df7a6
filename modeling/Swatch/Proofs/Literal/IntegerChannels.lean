import Swatch.Proofs.Binary64.Overflow
import Swatch.Proofs.Document.Single
/-!
Integers of any size as the channels of an `rgb` function.

A channel is read as an integer, which has to have no more than 4300 digits, and rounded to a number
of the format, which has to be finite.  Whatever its size then, the channel is clamped as the
integer is: rounding keeps the order, and the bounds of a channel are numbers of the format.

* `Rgb.IsChannel`: an integer that can be read and is not rounded to an infinity.
* `Rgb.sample_eq_some_iff`: the colour of a function is that of its integers, if all are channels.
* `Rgb.convertsTo_clamped`: such a function converts to that of the clamped integers, and any other
  stays as it is.
-/

namespace Swatch

open Binary64 Decimal Parts

namespace Rgb

/-- An integer that can be a channel: it has few enough digits to be read, and is not so large that
it would be rounded to an infinity. -/
structure IsChannel (s : Text) : Prop where
  countP_le : s.countP Char.isDigit ≤ maxIntegerDigits
  natAbs_lt : (integerValue s).natAbs < 2 ^ (1024 : Nat) - 2 ^ (970 : Nat)

lemma IsChannel.isFinite {s : Text} (h : IsChannel s) : (ofInt (integerValue s)).isFinite = true :=
  isFinite_ofInt_iff.mpr h.natAbs_lt

section Function

variable {red green blue text : Text}

/-- The colour of a function without an alpha is that of its integers, if they can be channels. -/
lemma sample_eq_some_iff [Elementary] (h : Form.rgb.IsFunction ⟨red, green, blue, none⟩ text)
    {s : Sample} :
    (Literal.mk .rgb text).sample = .ok (some s) ↔
      (IsChannel red ∧ IsChannel green ∧ IsChannel blue) ∧ s = ⟨ofInt (integerValue red),
        ofInt (integerValue green), ofInt (integerValue blue), none⟩ := by
  have hread {t : Text} (ht : t ∈ [red, green, blue]) {n : ℤ} : readInteger t = .ok n ↔
      t.countP Char.isDigit ≤ maxIntegerDigits ∧ n = integerValue t :=
    readInteger_eq_ok_iff (h.isInteger t ht)
  have hred : red ∈ [red, green, blue] := by simp
  have hgreen : green ∈ [red, green, blue] := by simp
  have hblue : blue ∈ [red, green, blue] := by simp
  have hfound := h.leftmost?_eq
  rw [Form.components?] at hfound
  rw [Literal.sample_eq, h.readText_eq, Form.read, Rgb.read, hfound]
  constructor
  · intro hs
    obtain ⟨r, hr, hs⟩ := bind_eq_ok.mp hs
    obtain ⟨g, hg, hs⟩ := bind_eq_ok.mp hs
    obtain ⟨b, hb, hs⟩ := bind_eq_ok.mp hs
    obtain ⟨a, ha, hs⟩ := bind_eq_ok.mp hs
    obtain rfl : none = a := Except.ok.inj ha
    obtain ⟨⟨hrfinite, hgfinite, hbfinite⟩, hs⟩ :=
      Sample.ofIntegers_eq_ok_iff.mp (map_some_eq_ok.mp hs)
    obtain ⟨hrcount, rfl⟩ := (hread hred).mp hr
    obtain ⟨hgcount, rfl⟩ := (hread hgreen).mp hg
    obtain ⟨hbcount, rfl⟩ := (hread hblue).mp hb
    exact ⟨⟨⟨hrcount, isFinite_ofInt_iff.mp hrfinite⟩, ⟨hgcount, isFinite_ofInt_iff.mp hgfinite⟩,
      ⟨hbcount, isFinite_ofInt_iff.mp hbfinite⟩⟩, hs⟩
  · rintro ⟨⟨hr, hg, hb⟩, rfl⟩
    have hsample : Sample.ofIntegers (integerValue red) (integerValue green)
        (integerValue blue) none = .ok _ :=
      Sample.ofIntegers_eq_ok_iff.mpr ⟨⟨hr.isFinite, hg.isFinite, hb.isFinite⟩, rfl⟩
    exact bind_eq_ok.mpr ⟨_, (hread hred).mpr ⟨hr.countP_le, rfl⟩,
      bind_eq_ok.mpr ⟨_, (hread hgreen).mpr ⟨hg.countP_le, rfl⟩,
        bind_eq_ok.mpr ⟨_, (hread hblue).mpr ⟨hb.countP_le, rfl⟩,
          bind_eq_ok.mpr ⟨none, rfl, map_some_eq_ok.mpr hsample⟩⟩⟩⟩

end Function

/-- Three integers between commas are a function. -/
lemma isFunction_integers {red green blue : Text} (hred : IsInteger red) (hgreen : IsInteger green)
    (hblue : IsInteger blue) : Form.rgb.IsFunction ⟨red, green, blue, none⟩
      (functionText "rgb".toList red green blue none) :=
  .intro (by decide) hred isRun_comma hgreen isRun_comma hblue .none

/-- **Integers of any size are clamped exactly**: an `rgb` function of three integers converts to
that of the integers held between 0 and 255, if each has at most 4300 digits and is below
`2 ^ 1024 - 2 ^ 970` without its sign.  Otherwise it stays as it is. -/
theorem convertsTo_clamped [Elementary] {red green blue : Text} (hred : IsInteger red)
    (hgreen : IsInteger green) (hblue : IsInteger blue) :
    ((∀ s ∈ [red, green, blue], s.countP Char.isDigit ≤ 4300 ∧
        (integerValue s).natAbs < 2 ^ (1024 : Nat) - 2 ^ (970 : Nat)) →
      (Literal.mk .rgb (functionText "rgb".toList red green blue none)).ConvertsTo .rgb
        (Rgb.text (max 0 (min 255 (integerValue red))) (max 0 (min 255 (integerValue green)))
          (max 0 (min 255 (integerValue blue))))) ∧
    ((∃ s ∈ [red, green, blue], 4300 < s.countP Char.isDigit ∨
        2 ^ (1024 : Nat) - 2 ^ (970 : Nat) ≤ (integerValue s).natAbs) →
      (Literal.mk .rgb (functionText "rgb".toList red green blue none)).Stays .rgb) := by
  have hfunction := isFunction_integers hred hgreen hblue
  have hliteral := hfunction.isLiteral []
  constructor
  · intro hall
    have hchannel {s : Text} (hs : s ∈ [red, green, blue]) : IsChannel s :=
      ⟨(hall s hs).1, (hall s hs).2⟩
    have hr := hchannel (s := red) (by simp)
    have hg := hchannel (s := green) (by simp)
    have hb := hchannel (s := blue) (by simp)
    refine Literal.convertsTo_of_outcome hliteral ?_
    rw [Literal.outcome_of_sample ((sample_eq_some_iff hfunction).mpr ⟨⟨hr, hg, hb⟩, rfl⟩)
      (Sample.clamped_ofInt hr.isFinite hg.isFinite hb.isFinite none)]
    exact map_some_eq_ok.mpr (Rgb.write_integers (clampChannel_mem _) (clampChannel_mem _)
      (clampChannel_mem _))
  · rintro ⟨s, hs, hnot⟩
    refine Literal.stays_of_ne hliteral fun text htext => ?_
    obtain ⟨c, hc⟩ := Literal.exists_sample htext
    obtain ⟨⟨hr, hg, hb⟩, -⟩ := (sample_eq_some_iff hfunction).mp hc
    have hchannel : IsChannel s := by
      simp only [List.mem_cons, List.not_mem_nil, or_false] at hs
      rcases hs with rfl | rfl | rfl <;> assumption
    rcases hnot with hmany | hlarge
    · exact absurd hchannel.countP_le (not_le.mpr hmany)
    · exact absurd hchannel.natAbs_lt (not_lt.mpr hlarge)

/-- Integers beside the bounds of a channel are clamped to these.  A zero of too many digits is not
read, and the least integer that is rounded to an infinity is no channel. -/
theorem convertsTo_clamped_edges :
    (IsInteger "256".toList ∧ IsInteger "-1".toList ∧ IsInteger "0042".toList ∧
        IsInteger (List.replicate (maxIntegerDigits + 1) '0') ∧
        IsInteger (integerText ((2 ^ (1024 : Nat) - 2 ^ (970 : Nat) : Nat) : ℤ))) ∧
      (Literal.mk .rgb "rgb(256, -1, 0042)".toList).ConvertsTo .rgb "rgb(255, 0, 42)".toList ∧
      (Literal.mk .rgb (functionText "rgb".toList "256".toList "-1".toList
        (List.replicate (maxIntegerDigits + 1) '0') none)).Stays .rgb ∧
      (Literal.mk .rgb (functionText "rgb".toList "256".toList "-1".toList
        (integerText ((2 ^ (1024 : Nat) - 2 ^ (970 : Nat) : Nat) : ℤ)) none)).Stays .rgb := by
  obtain ⟨n, hn⟩ : ∃ n : Nat, n = 2 ^ (1024 : Nat) - 2 ^ (970 : Nat) := ⟨_, rfl⟩
  have hred : IsInteger "256".toList := .plain ⟨by decide, by decide⟩
  have hgreen : IsInteger "-1".toList := .negative ⟨by decide, by decide⟩
  have hblue : IsInteger "0042".toList := .plain ⟨by decide, by decide⟩
  have hzeros : IsInteger (List.replicate (maxIntegerDigits + 1) '0') := by
    refine .plain ⟨List.cons_ne_nil _ _, fun c hc => ?_⟩
    rw [List.eq_of_mem_replicate hc]
    decide
  have hlarge := isInteger_integerText (n : ℤ)
  have hroom : 256 < n := by
    have hgap (j k l : Nat) (hj : j < k) (hk : k < l) : 2 ^ j < 2 ^ l - 2 ^ k := by
      have hdouble : 2 ^ (k + 1) ≤ 2 ^ l := Nat.pow_le_pow_right (by norm_num) hk
      have hless : 2 ^ j < 2 ^ k := Nat.pow_lt_pow_right (by norm_num) hj
      rw [Nat.two_pow_succ] at hdouble
      exact hless.trans_le (Nat.le_sub_of_add_le hdouble)
    have height : 256 = 2 ^ (8 : Nat) := by norm_num
    rw [hn, height]
    exact hgap 8 970 1024 (by norm_num) (by norm_num)
  have hdigits : n < 10 ^ maxIntegerDigits := by
    have hten (j k l : Nat) (hj : j ≠ 0) (hk : j ≤ k) : 2 ^ j - 2 ^ l < 10 ^ k :=
      (Nat.sub_le _ _).trans_lt ((Nat.pow_lt_pow_left (by norm_num) hj).trans_le
        (Nat.pow_le_pow_right (by norm_num) hk))
    rw [hn]
    exact hten 1024 maxIntegerDigits 970 (by norm_num) (by norm_num [maxIntegerDigits])
  have hvalue := ((readInteger_eq_ok_iff hlarge).mp (readInteger_integerText hdigits)).2
  have hsmall := convertsTo_clamped hred hgreen hblue
  have hmany := convertsTo_clamped hred hgreen hzeros
  have hbeyond := convertsTo_clamped hred hgreen hlarge
  rw [← hn] at hsmall hbeyond ⊢
  refine ⟨⟨hred, hgreen, hblue, hzeros, hlarge⟩, hsmall.1 ?_, hmany.2 ?_, hbeyond.2 ?_⟩
  · rw [List.forall_mem_cons, List.forall_mem_cons, List.forall_mem_singleton]
    exact ⟨⟨by decide, hroom⟩, ⟨by decide, lt_trans (by decide) hroom⟩,
      ⟨by decide, lt_trans (by decide) hroom⟩⟩
  · refine ⟨_, List.mem_cons_of_mem _ (List.mem_cons_of_mem _ List.mem_cons_self), Or.inl ?_⟩
    rw [List.countP_replicate, if_pos (by decide)]
    exact Nat.lt_succ_self maxIntegerDigits
  · refine ⟨_, List.mem_cons_of_mem _ (List.mem_cons_of_mem _ List.mem_cons_self), Or.inr ?_⟩
    rw [← hvalue, Int.natAbs_natCast]

end Rgb

end Swatch
