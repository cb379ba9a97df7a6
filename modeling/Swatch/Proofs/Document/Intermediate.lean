import Swatch.Proofs.Document.Rescan
import Swatch.Proofs.Literal.Opaque
/-!
Documents converted by way of `rgb` functions.

* `Literal.IsOpaque`: the colour of the literal is opaque, if it converts.
* `IsLiteral.isPlaced_converted_rgb`: such a literal is kept, or a function is put in its place.
* `IsLiteral.value_convertWith_converted_rgb`: in both cases it converts to the same text as
  before.
* `Document.value_convert_convert`: a document of opaque colours loses nothing on the way.
-/

namespace Swatch

section Conversion

variable [Elementary]

/-! ### Opaque literals -/

/-- A literal that does not convert to one form converts to none. -/
lemma IsLiteral.outcome_ne [Elementary.IsAccurate] {rest : Text} {l : Literal}
    (hl : IsLiteral rest l.form l.text)
    {form : Form} {bare : Bool} (h : ∀ text, l.outcome form bare ≠ .ok (some text)) (target : Form)
    (functional : Bool) (text : Text) : l.outcome target functional ≠ .ok (some text) := by
  intro htext
  obtain ⟨s, hs⟩ := Literal.exists_sample htext
  obtain ⟨text', htext'⟩ := hl.exists_outcome hs form bare
  exact h text' htext'

/-- A literal is opaque if the colour that it is converted from is. -/
def Literal.IsOpaque (l : Literal) : Prop := ∀ text c, l.outcome .rgb true = .ok (some text) →
  l.sample = .ok (some c) → c.IsOpaque

instance (l : Literal) : Decidable l.IsOpaque :=
  match ho : l.outcome .rgb true, hs : l.sample with
  | .ok (some text), .ok (some c) => decidable_of_iff (∀ a ∈ c.alpha, 1 ≤ a)
      ⟨fun h _ c' _ hc => by rw [hs] at hc; cases hc; exact h, fun h => h text c ho hs⟩
  | .ok none, _ | .error _, _ => isTrue fun text c htext => by rw [ho] at htext; cases htext
  | _, .ok none | _, .error _ => isTrue fun text c _ hc => by rw [hs] at hc; cases hc

section Literal

variable {rest : Text} {l : Literal}

/-- An opaque literal is kept, or a function is put in its place. -/
lemma IsLiteral.isPlaced_converted_rgb (hl : IsLiteral rest l.form l.text) (hsolid : l.IsOpaque) :
    l.IsPlaced (l.converted .rgb) := by
  by_cases h : ∃ text, l.outcome .rgb true = .ok (some text)
  · obtain ⟨text, htext⟩ := h
    obtain ⟨s, hs⟩ := Literal.exists_sample htext
    obtain ⟨red, green, blue, hrgb, -⟩ := hl.outcome_rgb hs (hsolid text s htext hs)
    have hfunction : Form.rgb.IsFunction _ (Rgb.text red green blue) :=
      Rgb.isFunction_text red green blue
    rw [Literal.converted_of_outcome hrgb]
    exact Or.inr ⟨hfunction.form_ne_hex, hfunction.isLiteral []⟩
  · exact Or.inl (Literal.converted_of_ne (not_exists.mp h))

/-- What an opaque literal becomes converts to the same text as the literal. -/
lemma IsLiteral.value_convertWith_converted_rgb [Elementary.IsAccurate]
    (hl : IsLiteral rest l.form l.text) (hsolid : l.IsOpaque) (target : Form) (functional : Bool) :
    ((l.converted .rgb).convertWith ⟨target.name, functional⟩).value
      = (l.convertWith ⟨target.name, functional⟩).value := by
  by_cases h : ∃ text, l.outcome .rgb true = .ok (some text)
  · obtain ⟨text, htext⟩ := h
    obtain ⟨s, hs⟩ := Literal.exists_sample htext
    obtain ⟨red, green, blue, hrgb, hsame⟩ := hl.outcome_rgb hs (hsolid text s htext hs)
    obtain ⟨converted, hconverted⟩ := hl.exists_outcome hs target functional
    rw [Literal.converted_of_outcome hrgb, Literal.value_convertWith_name,
      Literal.value_convertWith_name, hsame, hconverted]
  · rw [Literal.converted_of_ne (not_exists.mp h)]

end Literal

/-! ### Documents -/

namespace Document

/-- **Opaque documents by way of `rgb` functions**: where every opening parenthesis is followed by a
closing one and every literal that converts is opaque, converting the document of `rgb` functions is
converting the document.  What does not convert to some form is the same literal in between, and is
kept by both conversions. -/
theorem value_convert_convert [Elementary.IsAccurate] {s : Text} (hclosed : Text.Closed s)
    (hsolid : ∀ t ∈ Token.scan s, t.toLiteral.IsOpaque) (target : Form) (functional : Bool) :
    (convert ⟨target.name, functional⟩ (convert ⟨Form.rgb.name, true⟩ s).value).value
        = (convert ⟨target.name, functional⟩ s).value
      ∧ (Token.scan (convert ⟨Form.rgb.name, true⟩ s).value).map Token.toLiteral
        = (Token.scan s).map (fun t => t.toLiteral.converted .rgb)
      ∧ ∀ t ∈ Token.scan s, ∀ form bare,
        (∀ text, t.toLiteral.outcome form bare ≠ .ok (some text)) →
        t.toLiteral.converted .rgb = t.toLiteral
          ∧ (t.toLiteral.convertWith ⟨Form.rgb.name, true⟩).value = t.text
          ∧ (t.toLiteral.convertWith ⟨target.name, functional⟩).value = t.text := by
  have hplaced : ∀ t ∈ Token.scan s, t.toLiteral.IsPlaced (t.toLiteral.converted .rgb) := by
    intro t ht
    obtain ⟨rest, hl⟩ := Token.isLiteral_of_mem_scan ht
    exact hl.isPlaced_converted_rgb (hsolid t ht)
  rw [value_convert_name]
  refine ⟨?_, scan_substitute _ 0 hclosed hplaced, fun t ht form bare hne => ?_⟩
  · rw [value_convert, rewrite_substitute _ _ hclosed hplaced, value_convert]
    refine value_rewrite_congr 0 fun t ht => ?_
    obtain ⟨rest, hl⟩ := Token.isLiteral_of_mem_scan ht
    exact hl.value_convertWith_converted_rgb (hsolid t ht) target functional
  · obtain ⟨rest, hl⟩ := Token.isLiteral_of_mem_scan ht
    have hnone := hl.outcome_ne hne
    exact ⟨Literal.converted_of_ne (hnone .rgb true),
      Literal.value_convertWith_of_ne (hnone .rgb true),
      Literal.value_convertWith_of_ne (hnone target functional)⟩

end Document

end Conversion

namespace Document

/-- A document of two opaque colours, and a function that is none. -/
def threeFunctions : Text := "#F00 rgb(x) rgba(1, 2, 300, 1)".toList

/-- It is closed, its literals are opaque, and it loses nothing. -/
theorem convert_threeFunctions :
    Text.Closed threeFunctions ∧ (∀ t ∈ Token.scan threeFunctions, t.toLiteral.IsOpaque) ∧
      (convert ⟨Form.hsl.name, true⟩ (convert ⟨Form.rgb.name, true⟩ threeFunctions).value).value
        = (convert ⟨Form.hsl.name, true⟩ threeFunctions).value := by
  have hclosed : Text.Closed threeFunctions := by decide
  have hsolid : ∀ t ∈ Token.scan threeFunctions, t.toLiteral.IsOpaque := by decide +kernel
  exact ⟨hclosed, hsolid, (value_convert_convert hclosed hsolid .hsl true).1⟩

end Document

end Swatch
