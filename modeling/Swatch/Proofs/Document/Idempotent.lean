import Swatch.Proofs.Document.Rescan
import Swatch.Proofs.Literal.Stable
/-!
Converting a document to the same form once more.

A document is left alone by a conversion just if each of its tokens is.  So a second conversion
changes nothing just if it keeps every token of the converted document.  These tokens are what the
tokens of the document have become, if what is put in place keeps apart from what stands around it:
a function may close what was left open in front of it, and six hexadecimal digits go on with digits
that stand behind them.

* `Document.value_convert_eq_self_iff`: which documents a conversion leaves alone.
* `Document.KeepsApart`: what is put in place keeps apart from what stands around it.
* `Document.rescans_of_keepsApart`: then the second search meets what was put in place.
* `Document.convert_convert_eq_iff`: when a second conversion changes nothing.
* `Document.convert_almostOpaqueBlack`: a document that it changes, in every form.
-/

namespace Swatch

/-- A literal of hexadecimal digits is a number sign with digits. -/
lemma IsLiteral.exists_digits {rest text : Text} (h : IsLiteral rest .hex text) :
    ∃ digits, text = '#' :: digits ∧ ∀ d ∈ digits, isHexDigit d = true := by
  cases h with
  | function hword => exact absurd hword (by simp [Form.keywords])
  | @hex digits hmin hmax hdigits hstop => exact ⟨digits, rfl, hdigits⟩

/-- A literal that begins with a number sign is one of hexadecimal digits. -/
lemma IsLiteral.exists_digits_of_append_eq {rest text s : Text} {form : Form}
    (h : IsLiteral rest form text) (heq : text ++ rest = '#' :: s) :
    ∃ digits, text = '#' :: digits ∧ ∀ d ∈ digits, isHexDigit d = true := by
  cases h with
  | @hex digits hmin hmax hdigits hstop => exact ⟨digits, rfl, hdigits⟩
  | @function _ word name argument hword hname hne hclose =>
      obtain ⟨c, name, rfl⟩ := List.exists_cons_of_ne_nil (hname.ne_nil hword)
      obtain ⟨rfl, -⟩ := List.cons.inj heq
      exact absurd List.mem_cons_self (hname.notMem hword (by decide))

section Conversion

variable [Elementary]

/-- The text of what a literal converts to begins like a literal, as its own does. -/
lemma IsLiteral.isProper_converted {rest : Text} {l : Literal} (hl : IsLiteral rest l.form l.text)
    (form : Form) : (l.converted form).IsProper := by
  by_cases h : ∃ text, l.outcome form true = .ok (some text)
  · obtain ⟨text, htext⟩ := h
    rw [Literal.converted_of_outcome htext]
    exact ⟨[], hl.isLiteral_of_outcome htext⟩
  · rw [Literal.converted_of_ne (not_exists.mp h)]
    exact ⟨rest, hl⟩

namespace Document

variable {form : Form} {s : Text}

lemma isProper_converted (form : Form) (start : Nat) (s : Text) :
    ∀ t ∈ Token.scanFrom start s, (t.toLiteral.converted form).IsProper := by
  intro t ht
  obtain ⟨rest, hl⟩ := Token.isLiteral_of_mem_scanFrom ht
  exact hl.isProper_converted form

/-! ### Documents that a conversion leaves alone -/

/-- Where the converted text is the text, the first literal has been kept: a text is divided into a
literal and the rest in one way. -/
lemma text_converted_of_eq {l : Literal} {rest : Text} (hl : IsLiteral rest l.form l.text)
    (heq : (l.converted form).text ++ substitute (Literal.converted form) rest = l.text ++ rest) :
    (l.converted form).text = l.text := by
  by_cases h : ∃ text, l.outcome form true = .ok (some text)
  · obtain ⟨text, htext⟩ := h
    have hliteral := hl.isLiteral_of_outcome htext
    rw [Literal.converted_of_outcome htext] at heq ⊢
    by_cases hform : form = .hex
    · -- both are digits behind a number sign, and as many digits follow both of them
      subst hform
      obtain ⟨digits, rfl, hdigits⟩ := hliteral.exists_digits
      obtain ⟨digits', htext', hdigits'⟩ := hl.exists_digits_of_append_eq heq.symm
      have hrun := takeWhile_substitute isHexDigit_of_mem_literalHeads
        (isProper_converted .hex 0 rest)
      simp only [htext', List.cons_append, List.cons.injEq, true_and] at heq
      rw [htext', Text.run_inj hdigits hdigits' hrun heq]
    · have hbefore : IsLiteral (substitute (Literal.converted form) rest) form text :=
        hliteral.of_function hform
      have hhead := Literal.atHead?_append hbefore
      simp only at heq
      rw [heq, Literal.atHead?_append hl] at hhead
      exact (congrArg Literal.text (Option.some.inj hhead)).symm
  · rw [Literal.converted_of_ne (not_exists.mp h)]

lemma substitute_eq_self_iff (start : Nat) : substitute (Literal.converted form) s = s ↔
    ∀ t ∈ Token.scanFrom start s, (t.toLiteral.converted form).text = t.text := by
  induction s using Literal.scanInduction generalizing start with
  | nil => simp
  | literal l rest hl ih =>
      rw [Token.scanFrom_append hl, List.forall_mem_cons, substitute_append hl, ← ih]
      constructor
      · intro heq
        have htext := text_converted_of_eq hl heq
        rw [htext] at heq
        exact ⟨htext, List.append_cancel_left heq⟩
      · rintro ⟨htext, hrest⟩
        rw [htext, hrest]
  | skip c s hnone ih =>
      rw [Token.scanFrom_cons hnone, substitute_cons hnone, ← ih, List.cons.injEq]
      exact and_iff_right rfl

/-- A conversion leaves a document alone just if it keeps each of its tokens. -/
theorem value_convert_eq_self_iff (form : Form) (s : Text) :
    (convert ⟨form.name, true⟩ s).value = s ↔
      ∀ t ∈ Token.scan s, (t.toLiteral.convertWith ⟨form.name, true⟩).value = t.text := by
  rw [value_convert_name, substitute_eq_self_iff 0]
  simp only [Literal.text_converted]
  rfl

/-! ### What is put in place keeps apart -/

/-- What is put in the place of tokens keeps apart from what stands around it.  Six hexadecimal
digits are not followed by another one, and where functions are put in place, every opening
parenthesis is followed by a closing one. -/
def KeepsApart (form : Form) (s : Text) : Prop :=
  match form with
  | .hex => ∀ t ∈ Token.scan s, ∀ text, t.toLiteral.outcome .hex true = .ok (some text) →
      text.length = 7 → Text.Stops isHexDigit (s.drop t.stop)
  | _ => Text.Closed s

/-- What literals convert to in hexadecimal digits is a literal in front of any text, if six digits
are not followed by another one. -/
lemma isLiteral_hex_of_outcome {rest rest' text : Text} {l : Literal}
    (hl : IsLiteral rest l.form l.text) (h : l.outcome .hex true = .ok (some text))
    (hstop : text.length = 7 → Text.Stops isHexDigit rest') : IsLiteral rest' .hex text := by
  obtain ⟨c, hc⟩ := Literal.exists_sample h
  obtain ⟨text', htext, hwritten⟩ := hl.exists_isWritten hc (by decide : Form.hex ≠ .oklch)
  obtain rfl : text' = text := Option.some.inj (Except.ok.inj (htext.symm.trans h))
  cases hwritten with
  | @intro digits hlength hdigits =>
      refine .hex ?_ ?_ (fun d hd => isHexDigit_of_isLowerHexDigit (hdigits d hd)) ?_
      · split_ifs at hlength <;> omega
      · split_ifs at hlength <;> omega
      · split_ifs at hlength
        · exact Or.inl hlength
        · exact Or.inr (hstop (by rw [List.length_cons, hlength]))

/-- Hexadecimal digits hold no closing parenthesis, so one that is there was there before. -/
lemma mem_of_mem_substitute_hex (h : ')' ∈ substitute (Literal.converted .hex) s) : ')' ∈ s := by
  induction s using Literal.scanInduction with
  | nil => exact absurd h (by simp)
  | literal l rest hl ih =>
      rw [substitute_append hl, List.mem_append] at h
      rw [List.mem_append]
      refine h.imp (fun hmem => ?_) ih
      by_cases hout : ∃ text, l.outcome .hex true = .ok (some text)
      · obtain ⟨text, htext⟩ := hout
        obtain ⟨digits, hdigits, hhex⟩ := (hl.isLiteral_of_outcome htext).exists_digits
        rw [Literal.converted_of_outcome htext, hdigits] at hmem
        rcases List.mem_cons.mp hmem with heq | hmem
        · exact absurd heq (by decide)
        · exact absurd (hhex _ hmem) (by decide)
      · rwa [Literal.converted_of_ne (not_exists.mp hout)] at hmem
  | skip c s hnone ih =>
      rw [substitute_cons hnone, List.mem_cons] at h
      rw [List.mem_cons]
      exact h.imp_right ih

/-- Where six digits are not followed by another one, a second search meets the digits that were put
in place. -/
lemma rescans_hex (front : Text)
    (h : ∀ t ∈ Token.scanFrom front.length s, ∀ text,
      t.toLiteral.outcome .hex true = .ok (some text) → text.length = 7 →
        Text.Stops isHexDigit ((front ++ s).drop t.stop)) :
    Rescans (Literal.converted .hex) s := by
  induction s using Literal.scanInduction generalizing front with
  | nil => exact .nil
  | literal l rest hl ih =>
      rw [Token.scanFrom_append hl, List.forall_mem_cons] at h
      refine .literal hl ?_ (ih (front ++ l.text) ?_)
      · by_cases hout : ∃ text, l.outcome .hex true = .ok (some text)
        · obtain ⟨text, htext⟩ := hout
          rw [Literal.converted_of_outcome htext]
          refine isLiteral_hex_of_outcome hl htext fun hseven => ?_
          have hstop := h.1 text htext hseven
          simp only [Token.stop, ← List.append_assoc, ← List.length_append, List.drop_left] at hstop
          exact (stops_substitute (isProper_converted .hex 0 rest)).mpr hstop
        · rw [Literal.converted_of_ne (not_exists.mp hout)]
          exact isLiteral_substitute hl (isProper_converted .hex 0 rest)
      · rw [List.length_append, List.append_assoc]
        exact h.2
  | skip c s hnone ih =>
      rw [Token.scanFrom_cons hnone] at h
      refine .skip hnone ?_ (ih (front ++ [c]) ?_)
      · exact atHead?_substitute hnone (fun rest _ => mem_of_mem_substitute_hex)
          (isProper_converted .hex 0 s)
      · rw [List.length_append, List.length_singleton, List.append_assoc]
        exact h

/-- What is put in place and keeps apart is what a second search meets. -/
theorem rescans_of_keepsApart (h : KeepsApart form s) : Rescans (Literal.converted form) s := by
  by_cases hform : form = .hex
  · subst hform
    exact rescans_hex [] h
  · have hclosed : Text.Closed s := by
      cases form with
      | hex => exact absurd rfl hform
      | rgb | hsl | oklch => exact h
    have hplaced : ∀ t ∈ Token.scan s, t.toLiteral.IsPlaced (t.toLiteral.converted form) := by
      intro t ht
      obtain ⟨rest, hl⟩ := Token.isLiteral_of_mem_scan ht
      by_cases hout : ∃ text, t.toLiteral.outcome form true = .ok (some text)
      · obtain ⟨text, htext⟩ := hout
        rw [Literal.converted_of_outcome htext]
        exact Or.inr ⟨hform, hl.isLiteral_of_outcome htext⟩
      · exact Or.inl (Literal.converted_of_ne (not_exists.mp hout))
    exact rescans_of_closed _ hclosed hplaced

/-! ### A second conversion -/

/-- A document whose colours are converted to functions of a form. -/
def converted (form : Form) (s : Text) : Text := (convert ⟨form.name, true⟩ s).value

/-- Where what is put in place keeps apart, a second conversion changes nothing just if every token
is stable. -/
lemma converted_converted_eq_iff (h : KeepsApart form s) :
    converted form (converted form s) = converted form s ↔
      ∀ t ∈ Token.scan s, t.toLiteral.IsStable form := by
  have hscan := (rescans_of_keepsApart h).scan_eq 0 0
  have hkept : (∀ t ∈ Token.scan (converted form s),
      (t.toLiteral.convertWith ⟨form.name, true⟩).value = t.text) ↔
      ∀ l ∈ (Token.scan (converted form s)).map Token.toLiteral,
        (l.convertWith ⟨form.name, true⟩).value = l.text := by
    rw [List.forall_mem_map]
  rw [converted, value_convert_eq_self_iff, hkept, converted, value_convert_name]
  rw [Token.scan, hscan, List.forall_mem_map]
  rfl

/-- **A second conversion to the same form** changes nothing just if it keeps every token of the
converted document.  Where what is put in place keeps apart from what stands around it, that is so
just if every token of the document is stable.  In hexadecimal digits and in `rgb` functions the
tokens that are not are those whose alpha is below one and written as one.  In `hsl` functions these
are not stable either, and neither are those whose hue is less than half a degree short of the full
turn. -/
theorem convert_convert_eq_iff (form : Form) (s : Text) :
    (converted form (converted form s) = converted form s ↔
      ∀ t ∈ Token.scan (converted form s),
        (t.toLiteral.convertWith ⟨form.name, true⟩).value = t.text) ∧
    (KeepsApart form s →
      (converted form (converted form s) = converted form s ↔
        ∀ t ∈ Token.scan s, t.toLiteral.IsStable form) ∧
      (form = .hex ∨ form = .rgb → (converted form (converted form s) = converted form s ↔
        ∀ t ∈ Token.scan s, ∀ c, t.toLiteral.sample = .ok (some c) → ¬ c.IsAlmostOpaque form)) ∧
      (form = .hsl → converted form (converted form s) = converted form s →
        ∀ t ∈ Token.scan s, ∀ c, t.toLiteral.sample = .ok (some c) → ¬ c.IsAlmostOpaque form ∧
          ∀ b : Bytes, c.clamped = .ok (b.sample c.alpha) →
            ¬ (b.green < b.blue ∧ 120 * (b.blue - b.green) < b.red - b.green))) := by
  refine ⟨value_convert_eq_self_iff form _, fun h => ⟨converted_converted_eq_iff h, ?_, ?_⟩⟩
  · intro hform
    rw [converted_converted_eq_iff h]
    refine forall₂_congr fun t ht => ?_
    obtain ⟨rest, hl⟩ := Token.isLiteral_of_mem_scan ht
    exact hl.isStable_iff hform
  · rintro rfl hsame t ht c hc
    obtain ⟨rest, hl⟩ := Token.isLiteral_of_mem_scan ht
    have hstable := (converted_converted_eq_iff h).mp hsame t ht
    obtain ⟨b, hb, -⟩ := hl.exists_bytes hc
    refine ⟨(hl.not_isAlmostOpaque_of_isStable hc hb hstable).1, fun b' hb' => ?_⟩
    exact (hl.not_isAlmostOpaque_of_isStable hc hb' hstable).2

end Document

end Conversion

namespace Document

/-- White in three digits becomes a function that a second conversion leaves alone. -/
theorem convert_convert_white : KeepsApart .rgb "#fff".toList ∧
    converted .rgb (converted .rgb "#fff".toList) = converted .rgb "#fff".toList := by
  have hapart : KeepsApart .rgb "#fff".toList := by
    change Text.Closed _
    decide
  have hscan : Token.scan "#fff".toList = [⟨⟨.hex, "#fff".toList⟩, 0⟩] := by decide +kernel
  have halpha : (Option.map Sample.alpha <$> (Literal.mk .hex "#fff".toList).sample)
      = .ok (some none) := by decide +kernel
  refine ⟨hapart, ?_⟩
  have hiff := ((convert_convert_eq_iff .rgb "#fff".toList).2 hapart).2.1 (Or.inr rfl)
  rw [hiff, hscan]
  rintro t ht c hc ⟨a, ha, -⟩
  obtain rfl := List.mem_singleton.mp ht
  rw [hc] at halpha
  have hnone : c.alpha = none := Option.some.inj (Except.ok.inj halpha)
  rw [hnone] at ha
  exact absurd ha (by simp)

/-- A black that is almost opaque. -/
def almostOpaqueBlack : Text := "rgba(0, 0, 0, 0.999)".toList

/-- In every form its alpha is written as one by the first conversion, and left out by the
second. -/
theorem convert_almostOpaqueBlack :
    (converted .hex almostOpaqueBlack = "#000000ff".toList ∧
        converted .hex (converted .hex almostOpaqueBlack) = "#000000".toList) ∧
      (converted .rgb almostOpaqueBlack = "rgba(0, 0, 0, 1)".toList ∧
        converted .rgb (converted .rgb almostOpaqueBlack) = "rgb(0, 0, 0)".toList) ∧
      (converted .hsl almostOpaqueBlack = "hsla(0, 0%, 0%, 1)".toList ∧
        converted .hsl (converted .hsl almostOpaqueBlack) = "hsl(0, 0%, 0%)".toList) ∧
      (converted .oklch almostOpaqueBlack = "oklch(0% 0 0 / 1)".toList ∧
        converted .oklch (converted .oklch almostOpaqueBlack) = "oklch(0% 0 0)".toList) ∧
      ∀ form, converted form (converted form almostOpaqueBlack)
        ≠ converted form almostOpaqueBlack := by
  have hhex : converted .hex almostOpaqueBlack = "#000000ff".toList := by decide +kernel
  have hhex' : converted .hex "#000000ff".toList = "#000000".toList := by decide +kernel
  have hrgb : converted .rgb almostOpaqueBlack = "rgba(0, 0, 0, 1)".toList := by decide +kernel
  have hrgb' : converted .rgb "rgba(0, 0, 0, 1)".toList = "rgb(0, 0, 0)".toList := by decide +kernel
  have hhsl : converted .hsl almostOpaqueBlack = "hsla(0, 0%, 0%, 1)".toList := by decide +kernel
  have hhsl' : converted .hsl "hsla(0, 0%, 0%, 1)".toList = "hsl(0, 0%, 0%)".toList := by
    decide +kernel
  have hoklch : converted .oklch almostOpaqueBlack = "oklch(0% 0 0 / 1)".toList := by decide +kernel
  have hoklch' : converted .oklch "oklch(0% 0 0 / 1)".toList = "oklch(0% 0 0)".toList := by
    decide +kernel
  refine ⟨⟨hhex, ?_⟩, ⟨hrgb, ?_⟩, ⟨hhsl, ?_⟩, ⟨hoklch, ?_⟩, fun form => ?_⟩
  · rw [hhex, hhex']
  · rw [hrgb, hrgb']
  · rw [hhsl, hhsl']
  · rw [hoklch, hoklch']
  · cases form
    · rw [hhex, hhex']
      decide
    · rw [hrgb, hrgb']
      decide
    · rw [hhsl, hhsl']
      decide
    · rw [hoklch, hoklch']
      decide

end Document

end Swatch
