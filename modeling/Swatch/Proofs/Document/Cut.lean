import Swatch.Proofs.Document.Rewriting
/-!
Cutting a document behind a closing parenthesis.

A literal holds no closing parenthesis but for its last character, so none goes on behind a closing
parenthesis that it has met.  What stands behind the cut has no part in what was found before it,
and the search begins anew there.

* `Text.EndsClosed`: a text is empty or ends with a closing parenthesis.
* `IsLiteral.exists_of_append_eq`: a literal that begins in such a text ends in it.
* `Literal.atHead?_append_of_endsClosed`: which literal begins there is decided by the text alone.
* `Document.convert_cut`: both parts are searched and converted by themselves.
-/

namespace Swatch

/-- A text is empty, or it ends with a closing parenthesis. -/
def Text.EndsClosed (s : Text) : Prop := ∀ c ∈ s.getLast?, c = ')'

lemma Text.endsClosed_concat (s : Text) : Text.EndsClosed (s ++ [')']) := by
  intro c hc
  rw [List.getLast?_concat] at hc
  exact (Option.some.inj hc).symm

lemma Text.EndsClosed.of_append {s t : Text} (h : Text.EndsClosed (s ++ t)) :
    Text.EndsClosed t := by
  intro c hc
  refine h c ?_
  rw [List.getLast?_append, Option.mem_def.mp hc]
  rfl

lemma Text.EndsClosed.mem {s : Text} (h : Text.EndsClosed s) (hne : s ≠ []) : ')' ∈ s := by
  have hlast := h _ (List.getLast?_eq_some_getLast hne)
  rw [← hlast]
  exact List.getLast_mem hne

/-! ### Where a literal ends -/

/-- A closing parenthesis ends a literal. -/
lemma IsLiteral.notMem_dropLast {rest text : Text} {form : Form} (h : IsLiteral rest form text) :
    ')' ∉ text.dropLast := by
  cases h with
  | @hex digits hmin hmax hdigits hstop =>
      intro hmem
      rcases List.mem_cons.mp (List.mem_of_mem_dropLast hmem) with heq | hmem
      · exact absurd heq (by decide)
      · exact absurd (hdigits _ hmem) (by decide)
  | @function _ word name argument hword hname hne hclose =>
      have htext : name ++ '(' :: (argument ++ [')']) = (name ++ '(' :: argument) ++ [')'] := by
        simp
      rw [htext, List.dropLast_concat]
      simp [hname.notMem hword (c := ')') (by decide), hclose]

/-- What follows a literal matters only in that no digit may follow hexadecimal ones. -/
lemma IsLiteral.of_stops {rest rest' text : Text} {form : Form} (h : IsLiteral rest form text)
    (hstop : Text.Stops isHexDigit rest → Text.Stops isHexDigit rest') :
    IsLiteral rest' form text := by
  cases h with
  | function hword hname hne hclose => exact .function hword hname hne hclose
  | hex hmin hmax hdigits hend => exact .hex hmin hmax hdigits (hend.imp_right hstop)

section Cut

variable {s rest text : Text} {form : Form}

/-- What stands behind a text that ends with a closing parenthesis does not matter for a literal of
the text: a function, or hexadecimal digits with a character of the text behind them. -/
lemma IsLiteral.append_iff_of_endsClosed (h : Text.EndsClosed (text ++ rest)) (b : Text) :
    IsLiteral (rest ++ b) form text ↔ IsLiteral rest form text := by
  by_cases hrest : rest = []
  · subst hrest
    rw [List.append_nil] at h
    have hform {rest' : Text} (hl : IsLiteral rest' form text) : form ≠ .hex := by
      rintro rfl
      cases hl with
      | function hword => exact absurd hword (by simp [Form.keywords])
      | hex hmin hmax hdigits hstop =>
          rcases List.mem_cons.mp (h.mem (by simp)) with heq | hmem
          · exact absurd heq (by decide)
          · exact absurd (hdigits _ hmem) (by decide)
    exact ⟨fun hl => hl.of_function (hform hl), fun hl => hl.of_function (hform hl)⟩
  · obtain ⟨c, rest, rfl⟩ := List.exists_cons_of_ne_nil hrest
    have hfirst : Text.Stops isHexDigit (c :: rest ++ b) ↔ Text.Stops isHexDigit (c :: rest) := by
      rw [List.cons_append, Text.stops_cons, Text.stops_cons]
    exact ⟨fun hl => hl.of_stops hfirst.mp, fun hl => hl.of_stops hfirst.mpr⟩

/-- A literal that begins in a text that ends with a closing parenthesis ends in it. -/
lemma IsLiteral.exists_of_append_eq {b : Text} (hl : IsLiteral rest form text)
    (hs : s ≠ []) (h : Text.EndsClosed s) (heq : s ++ b = text ++ rest) :
    ∃ rest', s = text ++ rest' ∧ rest = rest' ++ b := by
  have hprefix : text <+: s := by
    rcases List.prefix_or_prefix_of_prefix (List.prefix_append text rest)
      (heq ▸ List.prefix_append s b) with hpre | hpre
    · exact hpre
    · -- otherwise the parenthesis that ends the text stands inside of the literal
      obtain ⟨tail, rfl⟩ := hpre
      cases tail with
      | nil => simp
      | cons c tail =>
          refine absurd ?_ hl.notMem_dropLast
          rw [List.dropLast_append_cons]
          exact List.mem_append_left _ (h.mem hs)
  obtain ⟨rest', rfl⟩ := hprefix
  rw [List.append_assoc] at heq
  exact ⟨rest', rfl, (List.append_cancel_left heq).symm⟩

/-- Which literal begins in a text that ends with a closing parenthesis is decided by this text. -/
lemma Literal.atHead?_append_of_endsClosed (hs : s ≠ []) (h : Text.EndsClosed s) (b : Text) :
    Literal.atHead? (s ++ b) = Literal.atHead? s := by
  refine Option.ext fun l => ?_
  rw [Literal.atHead?_eq_some_iff, Literal.atHead?_eq_some_iff]
  constructor
  · rintro ⟨rest, heq, hl⟩
    obtain ⟨rest', rfl, rfl⟩ := hl.exists_of_append_eq hs h heq
    exact ⟨rest', rfl, (IsLiteral.append_iff_of_endsClosed h b).mp hl⟩
  · rintro ⟨rest, rfl, hl⟩
    exact ⟨rest ++ b, List.append_assoc _ _ _, (IsLiteral.append_iff_of_endsClosed h b).mpr hl⟩

end Cut

/-! ### The search on both sides of a cut -/

/-- A token in a text that stands behind another one. -/
def Token.shift (n : Nat) (t : Token) : Token := { t with start := t.start + n }

/-- Where the search begins is added to where the tokens stand. -/
lemma Token.scanFrom_add (start n : Nat) (s : Text) :
    Token.scanFrom (start + n) s = (Token.scanFrom start s).map (Token.shift n) := by
  induction s using Literal.scanInduction generalizing start with
  | nil => simp
  | literal l rest hl ih =>
      rw [Token.scanFrom_append hl, Token.scanFrom_append hl, Nat.add_right_comm, ih, List.map_cons]
      rfl
  | skip c s hnone ih =>
      rw [Token.scanFrom_cons hnone, Token.scanFrom_cons hnone, Nat.add_right_comm, ih]

/-- The search goes over a cut as if it began there. -/
lemma Token.scanFrom_append_of_endsClosed {s : Text} (h : Text.EndsClosed s) (start : Nat)
    (b : Text) : Token.scanFrom start (s ++ b)
      = Token.scanFrom start s ++ Token.scanFrom (start + s.length) b := by
  induction s using Literal.scanInduction generalizing start with
  | nil => simp
  | literal l rest hl ih =>
      have hl' := (IsLiteral.append_iff_of_endsClosed h b).mpr hl
      rw [List.append_assoc, Token.scanFrom_append hl', Token.scanFrom_append hl, ih h.of_append,
        List.length_append, Nat.add_assoc, List.cons_append]
  | skip c s hnone ih =>
      have hnone' : Literal.atHead? (c :: (s ++ b)) = none :=
        (Literal.atHead?_append_of_endsClosed (by simp) h b).trans hnone
      have htail : Text.EndsClosed s := Text.EndsClosed.of_append (s := [c]) h
      rw [List.cons_append, Token.scanFrom_cons hnone', Token.scanFrom_cons hnone, ih htail,
        List.length_cons, Nat.add_right_comm, Nat.add_assoc]

namespace Document

/-- Rewriting goes over a cut as if it began there. -/
lemma value_rewrite_append_of_endsClosed (replace : Literal → Reported Text) {s : Text}
    (h : Text.EndsClosed s) (b : Text) :
    (rewrite replace (s ++ b)).value = (rewrite replace s).value ++ (rewrite replace b).value := by
  induction s using Literal.scanInduction with
  | nil => simp
  | literal l rest hl ih =>
      have hl' := (IsLiteral.append_iff_of_endsClosed h b).mpr hl
      rw [List.append_assoc, value_rewrite_append _ hl', value_rewrite_append _ hl,
        ih h.of_append, List.append_assoc]
  | skip c s hnone ih =>
      have hnone' : Literal.atHead? (c :: (s ++ b)) = none :=
        (Literal.atHead?_append_of_endsClosed (by simp) h b).trans hnone
      have htail : Text.EndsClosed s := Text.EndsClosed.of_append (s := [c]) h
      rw [List.cons_append, value_rewrite_cons _ hnone', value_rewrite_cons _ hnone, ih htail,
        List.cons_append]

/-- **A cut behind a closing parenthesis**: both parts of a document are converted by themselves,
and the literals of the document are those of both parts, the ones behind the cut as far from it as
in their part. -/
theorem convert_cut [Elementary] (settings : Settings) (a b : Text) :
    (convert settings (a ++ ')' :: b)).value
        = (convert settings (a ++ [')'])).value ++ (convert settings b).value
      ∧ Token.scan (a ++ ')' :: b)
        = Token.scan (a ++ [')']) ++ (Token.scan b).map (Token.shift (a.length + 1)) := by
  have hclosed : Text.EndsClosed (a ++ [')']) := Text.endsClosed_concat a
  have htext : a ++ ')' :: b = (a ++ [')']) ++ b := by simp
  rw [htext]
  constructor
  · rw [value_convert, value_convert, value_convert, value_rewrite_append_of_endsClosed _ hclosed]
  · rw [Token.scan, Token.scan, Token.scan, Token.scanFrom_append_of_endsClosed hclosed,
      List.length_append, List.length_singleton, Token.scanFrom_add]

end Document

end Swatch
