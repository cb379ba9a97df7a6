import Swatch.Proofs.Literal.Samples
/-!
Opaque colours as `rgb` functions, which lose nothing.

* `Rgb.text`: the function of three integers.
* `Rgb.sample_text`: it is read as the colour of these integers.
* `IsLiteral.outcome_rgb`: an opaque literal becomes such a function, and the function has the same
  outcome in every form as the literal.
-/

namespace Swatch

open Binary64 Parts

/-- The `rgb` function of three integers. -/
def Rgb.text (red green blue : ℤ) : Text :=
  Layout.commas "rgb".toList [integerText red, integerText green, integerText blue] [] none true

/-! ### Reading it -/

section Function

variable (red green blue : ℤ)

lemma Rgb.text_eq : Rgb.text red green blue = "rgb".toList ++ '(' :: (integerText red
    ++ (", ".toList ++ (integerText green ++ (", ".toList ++ (integerText blue
      ++ ([] ++ [')'])))))) := by
  simp [Rgb.text, Layout.commas, Layout.joined, List.intercalate]

lemma Rgb.isFunction_text : Rgb.IsFunction
    ⟨integerText red, integerText green, integerText blue, none⟩ (Rgb.text red green blue) := by
  have hgap : IsRun isSeparator ", ".toList := ⟨by decide, by decide⟩
  rw [Rgb.text_eq]
  exact .intro (by decide) (isInteger_integerText red) hgap (isInteger_integerText green) hgap
    (isInteger_integerText blue) .none

/-- The function of three integers is read as their colour. -/
lemma Rgb.sample_text [Elementary] {red green blue : ℤ} (hred : 0 ≤ red ∧ red ≤ 255)
    (hgreen : 0 ≤ green ∧ green ≤ 255) (hblue : 0 ≤ blue ∧ blue ≤ 255) :
    (Literal.mk .rgb (Rgb.text red green blue)).sample
      = .ok (some ⟨ofInt red, ofInt green, ofInt blue, none⟩) := by
  have hfunction : Form.rgb.IsFunction
      ⟨integerText red, integerText green, integerText blue, none⟩ (Rgb.text red green blue) :=
    Rgb.isFunction_text red green blue
  have hfound := hfunction.leftmost?_eq
  rw [Form.components?] at hfound
  have hread {n : ℤ} (hn : 0 ≤ n ∧ n ≤ 255) : readInteger (integerText n) = .ok n := by
    refine readInteger_integerText (lt_of_lt_of_le (by omega : n.natAbs < 10 ^ 3) ?_)
    exact Nat.pow_le_pow_right (by norm_num) (by decide)
  have hsample : Sample.ofIntegers red green blue none
      = .ok ⟨ofInt red, ofInt green, ofInt blue, none⟩ :=
    Sample.ofIntegers_eq_ok_iff.mpr
      ⟨⟨isFinite_ofInt hred, isFinite_ofInt hgreen, isFinite_ofInt hblue⟩, rfl⟩
  rw [Literal.sample_eq, hfunction.readText_eq, Form.read, Rgb.read, hfound]
  exact bind_eq_ok.mpr ⟨red, hread hred, bind_eq_ok.mpr ⟨green, hread hgreen,
    bind_eq_ok.mpr ⟨blue, hread hblue, bind_eq_ok.mpr ⟨none, rfl,
      map_eq_ok.mpr ⟨_, hsample, rfl⟩⟩⟩⟩⟩

end Function

/-! ### Writing it -/

/-- A channel in the gamut is written as it is. -/
lemma Rgb.write_integers {red green blue : ℤ} (hred : 0 ≤ red ∧ red ≤ 255)
    (hgreen : 0 ≤ green ∧ green ≤ 255) (hblue : 0 ≤ blue ∧ blue ≤ 255) :
    Rgb.write ⟨ofInt red, ofInt green, ofInt blue, none⟩ true
      = .ok (Rgb.text red green blue) := by
  have hround {n : ℤ} (hn : 0 ≤ n ∧ n ≤ 255) :
      integerText <$> (ofInt n).roundHalfUp = .ok (integerText n) :=
    map_eq_ok.mpr ⟨n, roundHalfUp_ofInt (by omega), rfl⟩
  rw [Rgb.write]
  exact bind_eq_ok.mpr ⟨_, hround hred, bind_eq_ok.mpr ⟨_, hround hgreen,
    bind_eq_ok.mpr ⟨_, hround hblue, bind_eq_ok.mpr ⟨none, rfl, rfl⟩⟩⟩⟩

/-! ### Opaque literals -/

/-- An opaque literal becomes the function of three integers, and this function has the same outcome
in every form as the literal. -/
theorem IsLiteral.outcome_rgb [Elementary] {rest : Text} {l : Literal}
    (h : IsLiteral rest l.form l.text)
    {s : Sample} (hs : l.sample = .ok (some s)) (hsolid : s.IsOpaque) :
    ∃ red green blue : ℤ,
      l.outcome .rgb true = .ok (some (Rgb.text red green blue)) ∧
      ∀ target functional, (Literal.mk .rgb (Rgb.text red green blue)).outcome target functional
        = l.outcome target functional := by
  obtain ⟨red, green, blue, hred, hgreen, hblue, hc⟩ := (h.sample_spec hs).1.clamped_eq
  have hsolid' : Sample.IsOpaque ⟨ofInt red, ofInt green, ofInt blue, s.alpha⟩ :=
    fun a ha => hsolid a ha
  have hwrite (target : Form) (functional : Bool) :
      target.write ⟨ofInt red, ofInt green, ofInt blue, s.alpha⟩ functional
        = target.write ⟨ofInt red, ofInt green, ofInt blue, none⟩ functional :=
    target.write_of_isOpaque hsolid' functional
  refine ⟨red, green, blue, ?_, fun target functional => ?_⟩
  · rw [Literal.outcome_of_sample hs hc, hwrite]
    exact map_eq_ok.mpr ⟨_, Rgb.write_integers hred hgreen hblue, rfl⟩
  · rw [Literal.outcome_of_sample hs hc, hwrite, Literal.outcome_of_sample
      (Rgb.sample_text hred hgreen hblue) (Sample.clamped_integers hred hgreen hblue none)]

end Swatch
