import Swatch.Proofs.Literal.Reread
/-!
What a literal converts to is a literal of the form.

For `oklch` this rests on the characters alone: whatever the three numbers and the alpha are, no
parenthesis is written in them, so that the one that closes the function is the first.

* `Binary64.eq_of_fixedText`: what a number with a fixed count of decimals looks like.
* `Oklch.isLiteral_of_write`: an `oklch` function is a literal.
* `IsLiteral.isLiteral_of_outcome`: so is what a literal converts to, whatever the form.
-/

namespace Swatch

open Binary64 Decimal Parts

/-! ### Numbers hold no parenthesis -/

namespace Text

/-- An ending is dropped, and nothing is added. -/
lemma mem_of_mem_dropEnd {ending s : Text} {c : Char} (h : c ∈ dropEnd ending s) : c ∈ s := by
  rw [dropEnd] at h
  cases hrest : dropWord? ending.reverse s.reverse with
  | none => rwa [hrest] at h
  | some rest =>
      rw [hrest, Option.map_some, Option.getD_some, List.mem_reverse] at h
      rw [← List.mem_reverse, dropWord?_eq_some_iff.mp hrest]
      exact List.mem_append_right _ h

lemma mem_of_mem_trimEnd {p : Char → Bool} {s : Text} {c : Char} (h : c ∈ trimEnd p s) :
    c ∈ s := by
  rw [trimEnd, List.mem_reverse] at h
  rw [← List.mem_reverse]
  exact (List.dropWhile_suffix p).subset h

end Text

/-- A number with a few decimals has all of them written, behind a sign that it may have. -/
lemma Binary64.eq_of_fixedText {x : Binary64} {places : Nat} (hpos : 0 < places)
    (hplaces : places ≤ 6) {t : Text} (h : x.fixedText places = .ok t) :
    t = "NaN".toList ∨ ∃ negative n, t = withSign negative (pointText places n) := by
  have hheld : heldPlaces places = places := by
    have hmax : maxPlaces = 1000026 := rfl
    rw [heldPlaces, hmax]
    omega
  unfold fixedText at h
  split_ifs at h
  cases x with
  | nan => exact Or.inl (Except.ok.inj h).symm
  | infinity negative => exact absurd h (by simp)
  | finite negative units hgrid =>
      simp only [hheld, scaledText_neg hpos hplaces] at h
      split_ifs at h
      exact Or.inr ⟨_, _, (Except.ok.inj h).symm⟩

/-- A number with a few decimals holds no parenthesis. -/
lemma Binary64.notMem_of_fixedText {x : Binary64} {places : Nat} (hpos : 0 < places)
    (hplaces : places ≤ 6) {t : Text} (h : x.fixedText places = .ok t) : ')' ∉ t := by
  rcases eq_of_fixedText hpos hplaces h with rfl | ⟨negative, n, rfl⟩
  · decide
  · have hpoint : ')' ∉ pointText places n :=
      IsRun.notMem (isDecimal_pointText places n) (by decide)
    rw [withSign]
    split_ifs
    · simp [hpoint]
    · exact hpoint

/-! ### Functions of `oklch` -/

namespace Oklch

/-- Nor does it when the zeros of its fraction are trimmed. -/
lemma notMem_trimFraction {s : Text} (h : ')' ∉ s) : ')' ∉ trimFraction s := by
  have hspan := Text.span_append (· ≠ '.') s
  rw [← hspan, List.mem_append, not_or] at h
  rw [trimFraction, List.mem_append, not_or]
  exact ⟨h.1, fun hmem => h.2 (Text.mem_of_mem_trimEnd (Text.mem_of_mem_dropEnd hmem))⟩

lemma notMem_trimAlpha {s : Text} (h : ')' ∉ s) : ')' ∉ trimAlpha s := by
  have hend : ')' ∉ Text.dropEnd ['.'] (Text.trimEnd (· = '0') s) :=
    fun hmem => h (Text.mem_of_mem_trimEnd (Text.mem_of_mem_dropEnd hmem))
  rw [trimAlpha]
  split
  · next rest heq =>
    rw [heq] at hend
    exact fun hmem => hend (List.mem_cons_of_mem _ hmem)
  · exact hend

/-- The alpha of an `oklch` function holds no parenthesis. -/
lemma notMem_of_alphaPart {s : Sample} {t : Text} (h : alphaPart s = .ok t) : ')' ∉ t := by
  rw [alphaPart] at h
  split at h
  · next a ha =>
    split_ifs at h
    · obtain ⟨number, hnumber, h⟩ := bind_eq_ok.mp h
      have hmem := notMem_trimAlpha (notMem_of_fixedText (by norm_num) (by norm_num) hnumber)
      rw [← Except.ok.inj h]
      simp [hmem]
    · rw [← Except.ok.inj h]
      simp
  · rw [← Except.ok.inj h]
    simp

/-- Four texts without a parenthesis make up a literal. -/
lemma isLiteral_of_notMem {lightness chroma hue alpha : Text} (hlightness : ')' ∉ lightness)
    (hchroma : ')' ∉ chroma) (hhue : ')' ∉ hue) (halpha : ')' ∉ alpha) :
    IsLiteral [] .oklch
      ("oklch(".toList ++ lightness ++ '%' :: ' ' :: chroma ++ ' ' :: hue ++ alpha ++ [')']) := by
  have hclose : ')' ∉ lightness ++ '%' :: ' ' :: chroma ++ ' ' :: hue ++ alpha := by
    simp [hlightness, hchroma, hhue, halpha]
  have hliteral : IsLiteral [] .oklch ("oklch".toList ++ '(' :: (_ ++ [')'])) :=
    .function (by decide) (List.forall₂_same.mpr fun _ _ => Or.inl rfl) (by simp) hclose
  simpa using hliteral

/-- An `oklch` function is a literal. -/
theorem isLiteral_of_write [Elementary] {s : Sample} {t : Text} (h : Oklch.write s true = .ok t) :
    IsLiteral [] .oklch t := by
  rw [Oklch.write] at h
  obtain ⟨lch, -, h⟩ := bind_eq_ok.mp h
  obtain ⟨lightness, hlightness, h⟩ := bind_eq_ok.mp h
  obtain ⟨chroma, hchroma, h⟩ := bind_eq_ok.mp h
  obtain ⟨hue, hhue, h⟩ := bind_eq_ok.mp h
  obtain ⟨alpha, halpha, h⟩ := bind_eq_ok.mp h
  have htwo {x : Binary64} {number : Text} (hx : x.fixedText (2 : Nat) = .ok number) :
      ')' ∉ Text.dropEnd ".00".toList number :=
    fun hmem => notMem_of_fixedText (by norm_num) (by norm_num) hx (Text.mem_of_mem_dropEnd hmem)
  have hfour : ')' ∉ trimFraction chroma :=
    notMem_trimFraction (notMem_of_fixedText (by norm_num : 0 < 4) (by norm_num) hchroma)
  rw [← Except.ok.inj h]
  exact isLiteral_of_notMem (htwo hlightness) hfour (htwo hhue) (notMem_of_alphaPart halpha)

end Oklch

/-! ### Every form -/

/-- What a literal converts to is a literal of the form. -/
theorem IsLiteral.isLiteral_of_outcome [Elementary] {rest text : Text} {l : Literal} {target : Form}
    (hl : IsLiteral rest l.form l.text) (h : l.outcome target true = .ok (some text)) :
    IsLiteral [] target text := by
  obtain ⟨s, hs⟩ := Literal.exists_sample h
  by_cases htarget : target = .oklch
  · obtain ⟨hintegral, -⟩ := hl.sample_spec hs
    obtain ⟨red, green, blue, -, -, -, hclamped⟩ := hintegral.clamped_eq
    rw [Literal.outcome_of_sample hs hclamped, map_some_eq_ok, htarget] at h
    rw [htarget]
    exact Oklch.isLiteral_of_write h
  · obtain ⟨text', htext, hwritten⟩ := hl.exists_isWritten hs htarget
    rw [h, Except.ok.injEq, Option.some.injEq] at htext
    rw [htext]
    exact hwritten.isLiteral

end Swatch
