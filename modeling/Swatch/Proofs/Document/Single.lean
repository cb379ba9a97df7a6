import Swatch.Proofs.Document.Cut
import Swatch.Proofs.Literal.Reread
/-!
A document that is a single colour.

A text is a single colour if the search in what trimming leaves of it meets one token from end to
end.  The blanks that are trimmed off neither begin a literal nor go on with one, so in the document
the search meets the same token behind the blanks, and what becomes of it stands between them.

* `Text.IsMargin`: what is trimmed off a text on both sides.
* `Token.ofWhole?_eq_some_iff`: the token of a single colour is the one that the search meets.
* `Document.value_rewrite_append_of_blank`: rewriting passes over blanks.
* `Document.value_convert_of_ofWhole?`: a document that is a single colour between blanks.
* `Color.value_convert?_eq`: converting a colour by itself and in a document agree.
* `Literal.ConvertsTo`, `Literal.Stays`: what becomes of a single literal, whichever way it is
  converted.
-/

namespace Swatch

/-! ### Blanks around a text -/

/-- What trimming takes off a text in front and behind. -/
structure Text.IsMargin (p : Char → Bool) (s front back : Text) : Prop where
  eq : s = front ++ (trim p s ++ back)
  front : ∀ c ∈ front, p c
  back : ∀ c ∈ back, p c

lemma Text.exists_isMargin (p : Char → Bool) (s : Text) :
    ∃ front back, IsMargin p s front back := by
  have hfront : s.takeWhile p ++ s.dropWhile p = s := List.takeWhile_append_dropWhile
  have hback : trim p s ++ ((s.dropWhile p).reverse.takeWhile p).reverse = s.dropWhile p := by
    rw [trim, ← List.reverse_append, List.takeWhile_append_dropWhile, List.reverse_reverse]
  refine ⟨s.takeWhile p, ((s.dropWhile p).reverse.takeWhile p).reverse, ?_, ?_, ?_⟩
  · rw [hback, hfront]
  · exact fun c hc => List.mem_takeWhile_imp hc
  · exact fun c hc => List.mem_takeWhile_imp (List.mem_reverse.mp hc)

/-- No literal begins with a blank. -/
lemma isBlank_of_mem_literalHeads : ∀ c ∈ literalHeads, isBlank c = false := by
  decide

/-- Blanks end a run of hexadecimal digits. -/
lemma stops_isHexDigit_of_blank {s : Text} (h : ∀ c ∈ s, isBlank c) :
    Text.Stops isHexDigit s := by
  intro c hc
  by_contra hdigit
  have hnot := isBlank_of_isHexDigit (Bool.not_eq_false _ ▸ hdigit)
  rw [h c (List.mem_of_mem_head? hc)] at hnot
  exact absurd hnot (by decide)

/-! ### The token of a single colour -/

namespace Token

lemma scan_of_isLiteral {text : Text} {form : Form} (h : IsLiteral [] form text) :
    scan text = [⟨⟨form, text⟩, 0⟩] := by
  have hscan := scanFrom_append (l := ⟨form, text⟩) h 0
  rwa [List.append_nil, scanFrom_nil] at hscan

/-- A token that stands at the beginning of a text and ends with it is a literal by itself. -/
lemma isLiteral_of_scan {s : Text} {t : Token} (hscan : scan s = [t]) (hstart : t.start = 0)
    (hstop : t.stop = s.length) : t.text = s ∧ IsLiteral [] t.form s := by
  have hall : IsScanFrom [] s (scan s) := isScanFrom_iff.mpr rfl
  rw [hscan] at hall
  obtain ⟨front, rest, heq, hlength, hl⟩ := (hall.standsAt t (List.mem_singleton_self t)).2
  rw [hstart, List.length_eq_zero_iff] at hlength
  rw [hlength, List.nil_append, List.nil_append] at heq
  have hrest : rest = [] := by
    have hsum := congrArg List.length heq
    rw [List.length_append, ← hstop, stop, hstart] at hsum
    exact List.eq_nil_of_length_eq_zero (by omega)
  rw [hrest, List.append_nil] at heq
  rw [hrest] at hl
  exact ⟨heq.symm, heq ▸ hl⟩

/-- The token of a single colour is the one that the search meets in the trimmed text, if it meets
this one from end to end. -/
lemma ofWhole?_eq_some_iff {s : Text} {t : Token} :
    ofWhole? s = some t ↔
      scan (Text.trim isBlank s) = [t] ∧ t.start = 0 ∧ t.stop = (Text.trim isBlank s).length := by
  constructor
  · intro h
    rw [ofWhole?] at h
    split at h
    · next l hl =>
      split at h
      · next htext =>
        obtain ⟨rest, hs, hliteral⟩ := Literal.atHead?_eq_some_iff.mp hl
        obtain rfl : rest = [] := by rwa [htext, List.self_eq_append_right] at hs
        rw [← Option.some.inj h, ← htext]
        exact ⟨scan_of_isLiteral hliteral, rfl, Nat.zero_add _⟩
      · exact absurd h (by simp)
    · exact absurd h (by simp)
  · rintro ⟨hscan, hstart, hstop⟩
    obtain ⟨htext, hl⟩ := isLiteral_of_scan hscan hstart hstop
    have hhead := Literal.atHead?_append hl
    rw [List.append_nil] at hhead
    simp only [ofWhole?, hhead, if_true, Option.some.injEq]
    exact List.singleton_inj.mp ((scan_of_isLiteral hl).symm.trans hscan)

end Token

/-! ### Documents -/

namespace Document

/-- Rewriting passes over blanks. -/
lemma value_rewrite_append_of_blank (replace : Literal → Reported Text) {front : Text}
    (h : ∀ c ∈ front, isBlank c) (s : Text) :
    (rewrite replace (front ++ s)).value = front ++ (rewrite replace s).value := by
  induction front with
  | nil => rfl
  | cons c front ih =>
      rw [List.forall_mem_cons] at h
      have hc : c ∉ literalHeads := by
        intro hmem
        rw [isBlank_of_mem_literalHeads c hmem] at h
        exact absurd h.1 (by decide)
      rw [List.cons_append, value_rewrite_cons replace (Literal.atHead?_of_notMem hc _), ih h.2,
        List.cons_append]

variable [Elementary] {settings : Settings} {code front back : Text}

/-- A document that is a single colour between blanks is converted between the blanks. -/
lemma value_convert_of_ofWhole? {t : Token} (ht : Token.ofWhole? code = some t)
    (hmargin : Text.IsMargin isBlank code front back) :
    (convert settings code).value
      = front ++ ((t.toLiteral.convertWith settings).value ++ back) := by
  obtain ⟨hscan, hstart, hstop⟩ := Token.ofWhole?_eq_some_iff.mp ht
  obtain ⟨htext, hl⟩ := Token.isLiteral_of_scan hscan hstart hstop
  have hback := value_rewrite_append_of_blank (fun l => l.convertWith settings) hmargin.back []
  rw [List.append_nil, rewrite_nil, Reported.value_pure, List.append_nil] at hback
  have hl' : IsLiteral back t.form t.text := by
    rw [htext]
    exact hl.of_stops fun _ => stops_isHexDigit_of_blank hmargin.back
  have hcode : code = front ++ (t.text ++ back) := htext ▸ hmargin.eq
  rw [value_convert, hcode, value_rewrite_append_of_blank _ hmargin.front,
    value_rewrite_append _ hl', hback]

end Document

variable [Elementary]

namespace Color

/-- In a document a token becomes what it is converted to by itself, and stays if that is
nothing. -/
lemma value_convertWith_of_ofWhole? {settings : Settings} {code : Text} {t : Token}
    (ht : Token.ofWhole? code = some t) :
    (t.toLiteral.convertWith settings).value
      = ((convert? settings code).value).getD t.text := by
  rw [Literal.value_convertWith, convert?, ht]
  simp only [Reported.value_bind, Settings.value_target]
  cases settings.target? with
  | none => rfl
  | some target => rw [Literal.convert, Reported.value_bind, Reported.value_pure]

/-- **A colour by itself and in a document**: a text is a token by itself just if the search in the
trimmed text meets one token from end to end, and it is that token.  What such a text is converted
to stands in the converted document between the blanks that were trimmed off, and if it is converted
to nothing, the document stays as it is. -/
theorem value_convert?_eq (settings : Settings) (code : Text) :
    (∀ t, Token.ofWhole? code = some t ↔ Token.scan (Text.trim isBlank code) = [t] ∧
        t.start = 0 ∧ t.stop = (Text.trim isBlank code).length) ∧
      (∃ front back, Text.IsMargin isBlank code front back) ∧
      ∀ front back, Text.IsMargin isBlank code front back →
        (∀ r, (convert? settings code).value = some r →
          (Document.convert settings code).value = front ++ (r ++ back)) ∧
        ((convert? settings code).value = none →
          (¬ ∃ t, Token.scan (Text.trim isBlank code) = [t] ∧ t.start = 0 ∧
            t.stop = (Text.trim isBlank code).length) ∨
          (Document.convert settings code).value = code) := by
  refine ⟨fun t => Token.ofWhole?_eq_some_iff, Text.exists_isMargin isBlank code, ?_⟩
  intro front back hmargin
  cases hwhole : Token.ofWhole? code with
  | none =>
      have hnone : (convert? settings code).value = none := by rw [convert?, hwhole]; rfl
      refine ⟨fun r hr => ?_, fun _ => Or.inl ?_⟩
      · rw [hnone] at hr
        exact absurd hr (by simp)
      · rintro ⟨t, ht⟩
        rw [Token.ofWhole?_eq_some_iff.mpr ht] at hwhole
        exact absurd hwhole (by simp)
  | some t =>
      have hdocument : (Document.convert settings code).value
          = front ++ (((convert? settings code).value.getD t.text) ++ back) := by
        rw [Document.value_convert_of_ofWhole? hwhole hmargin, value_convertWith_of_ofWhole? hwhole]
      refine ⟨fun r hr => ?_, fun hnone => Or.inr ?_⟩
      · rw [hdocument, hr, Option.getD_some]
      · obtain ⟨hscan, hstart, hstop⟩ := Token.ofWhole?_eq_some_iff.mp hwhole
        obtain ⟨htext, -⟩ := Token.isLiteral_of_scan hscan hstart hstop
        rw [hdocument, hnone, Option.getD_none, htext, ← hmargin.eq]

end Color

/-! ### Single literals -/

namespace Literal

/-- What a literal converts to as a function: by itself, as a document and as a single colour. -/
structure ConvertsTo (l : Literal) (target : Form) (text : Text) : Prop where
  literal : (l.convertWith ⟨target.name, true⟩).value = text
  document : (Document.convert ⟨target.name, true⟩ l.text).value = text
  color : (Color.convert? ⟨target.name, true⟩ l.text).value = some text

/-- A literal that stays as it is: as a single colour it is none. -/
structure Stays (l : Literal) (target : Form) : Prop where
  literal : (l.convertWith ⟨target.name, true⟩).value = l.text
  document : (Document.convert ⟨target.name, true⟩ l.text).value = l.text
  color : (Color.convert? ⟨target.name, true⟩ l.text).value = none

variable {l : Literal} {target : Form}

lemma convertsTo_of_outcome (hl : IsLiteral [] l.form l.text) {text : Text}
    (h : l.outcome target true = .ok (some text)) : l.ConvertsTo target text := by
  have hvalue : (l.convertWith ⟨target.name, true⟩).value = text := by
    rw [value_convertWith_name, h]
  refine ⟨hvalue, (Document.value_convert_of_isLiteral hl _).trans hvalue, ?_⟩
  exact Color.value_convert?_eq_some_iff.mpr ⟨_, Token.ofWhole?_of_isLiteral hl, h⟩

lemma stays_of_ne (hl : IsLiteral [] l.form l.text)
    (h : ∀ text, l.outcome target true ≠ .ok (some text)) : l.Stays target := by
  have hvalue : (l.convertWith ⟨target.name, true⟩).value = l.text := value_convertWith_of_ne h
  refine ⟨hvalue, (Document.value_convert_of_isLiteral hl _).trans hvalue, ?_⟩
  rw [Option.eq_none_iff_forall_ne_some]
  intro text htext
  obtain ⟨token, htoken, houtcome⟩ := Color.value_convert?_eq_some_iff.mp htext
  obtain rfl := Option.some.inj ((Token.ofWhole?_of_isLiteral hl).symm.trans htoken)
  exact h text houtcome

end Literal

end Swatch
