import Swatch.Document.Basic
import Swatch.Proofs.Literal.Scan
/-!
Rewriting a text literal by literal, as equations along the search for literals.

* `rewrite_nil`, `rewrite_append`, `rewrite_cons`: what rewriting does with the empty text, with a
  literal and with a character at which no literal begins.
* `rewrite_text`: putting back what was found changes nothing.
* `Literal.converted`: what a literal is in a converted document.
* `value_convert`: a document is converted by converting each literal by itself.
* `value_convert_of_isLiteral`: so a document that is one literal is converted as the literal is.
-/

namespace Swatch.Document

variable (replace : Literal → Reported Text)

@[simp] lemma rewrite_nil : rewrite replace [] = pure [] := by rw [rewrite]

/-- A literal is replaced, and the rest is rewritten by itself. -/
lemma rewrite_append {rest : Text} {l : Literal} (h : IsLiteral rest l.form l.text) :
    rewrite replace (l.text ++ rest) = do
      let replacement ← replace l
      return replacement ++ (← rewrite replace rest) := by
  obtain ⟨form, text⟩ := l
  obtain ⟨c, text, rfl⟩ := List.exists_cons_of_ne_nil h.ne_nil
  have hdrop : (text ++ rest).drop ((c :: text).length - 1) = rest := by simp
  rw [List.cons_append, rewrite, ← List.cons_append, Literal.atHead?_append h]
  simp only [hdrop]

/-- A character at which no literal begins is kept. -/
lemma rewrite_cons {c : Char} {s : Text} (h : Literal.atHead? (c :: s) = none) :
    rewrite replace (c :: s) = do return c :: (← rewrite replace s) := by
  rw [rewrite]
  simp only [h]

lemma value_rewrite_append {rest : Text} {l : Literal} (h : IsLiteral rest l.form l.text) :
    (rewrite replace (l.text ++ rest)).value
      = (replace l).value ++ (rewrite replace rest).value := by
  rw [rewrite_append replace h]
  rfl

lemma value_rewrite_cons {c : Char} {s : Text} (h : Literal.atHead? (c :: s) = none) :
    (rewrite replace (c :: s)).value = c :: (rewrite replace s).value := by
  rw [rewrite_cons replace h]
  rfl

/-- Putting back what was found changes nothing. -/
lemma rewrite_text (s : Text) : (rewrite (fun l => pure l.text) s).value = s := by
  induction s using Literal.scanInduction with
  | nil => simp
  | literal l rest h ih => rw [value_rewrite_append _ h, ih, Reported.value_pure]
  | skip c s h ih => rw [value_rewrite_cons _ h, ih]

/-- What a rewritten text is depends on what its literals become, not on what is reported. -/
lemma value_rewrite_congr {replace replace' : Literal → Reported Text} (start : Nat) {s : Text}
    (h : ∀ t ∈ Token.scanFrom start s,
      (replace t.toLiteral).value = (replace' t.toLiteral).value) :
    (rewrite replace s).value = (rewrite replace' s).value := by
  induction s using Literal.scanInduction generalizing start with
  | nil => simp
  | literal l rest hl ih =>
      rw [Token.scanFrom_append hl, List.forall_mem_cons] at h
      rw [value_rewrite_append _ hl, value_rewrite_append _ hl, h.1, ih _ h.2]
  | skip c s hnone ih =>
      rw [Token.scanFrom_cons hnone] at h
      rw [value_rewrite_cons _ hnone, value_rewrite_cons _ hnone, ih _ h]

end Swatch.Document

/-! ### Conversions -/

namespace Swatch

@[simp] lemma Settings.value_target (settings : Settings) :
    settings.target.value = settings.target? := by
  rw [Settings.target]
  cases settings.target? <;> rfl

/-- A name that is no form's leaves nothing to convert to. -/
lemma Settings.target?_eq_none {settings : Settings}
    (h : ∀ form : Form, settings.output ≠ form.name) : settings.target? = none := by
  cases ht : settings.target? with
  | none => rfl
  | some form => exact absurd (Form.name_of_ofName? ht).symm (h form)

lemma Settings.target?_name (form : Form) (functional : Bool) :
    (Settings.mk form.name functional).target? = some form :=
  form.ofName?_name

lemma Settings.target_name (form : Form) (functional : Bool) :
    (Settings.mk form.name functional).target = pure (some form) := by
  rw [Settings.target, Settings.target?_name]

variable [Elementary]

lemma Literal.value_convertWith (l : Literal) (settings : Settings) :
    (l.convertWith settings).value
      = (l.convert settings.target? settings.functional).value := by
  rw [Literal.convertWith, Reported.value_bind, Settings.value_target]

/-- A literal is replaced by the text of its outcome, or by its own if there is none. -/
lemma Literal.value_convertWith_name (l : Literal) (target : Form) (functional : Bool) :
    (l.convertWith ⟨target.name, functional⟩).value = match l.outcome target functional with
      | .ok (some text) => text
      | _ => l.text := by
  rw [value_convertWith, Settings.target?_name, convert, Reported.value_bind, convert?]
  cases l.outcome target functional with
  | error fault => rfl
  | ok found =>
      cases found with
      | none => rfl
      | some text => rfl

/-- What does not convert is kept. -/
lemma Literal.value_convertWith_of_ne {l : Literal} {target : Form} {functional : Bool}
    (h : ∀ text, l.outcome target functional ≠ .ok (some text)) :
    (l.convertWith ⟨target.name, functional⟩).value = l.text := by
  rw [value_convertWith_name]
  split
  · next text htext => exact absurd htext (h text)
  · rfl

/-- What a literal is in a converted document, as a function if there is one of the form: the
literal of the form that it converts to, or the literal itself. -/
def Literal.converted (target : Form) (l : Literal) : Literal :=
  match l.outcome target true with
  | .ok (some text) => ⟨target, text⟩
  | _ => l

lemma Literal.converted_of_outcome {l : Literal} {target : Form} {text : Text}
    (h : l.outcome target true = .ok (some text)) : l.converted target = ⟨target, text⟩ := by
  rw [converted, h]

lemma Literal.converted_of_ne {l : Literal} {target : Form}
    (h : ∀ text, l.outcome target true ≠ .ok (some text)) : l.converted target = l := by
  rw [converted]
  split
  · next text htext => exact absurd htext (h text)
  · rfl

/-- In a converted document a literal has the text that it is converted to. -/
lemma Literal.text_converted (target : Form) (l : Literal) :
    (l.converted target).text = (l.convertWith ⟨target.name, true⟩).value := by
  rw [value_convertWith_name, converted]
  split <;> rfl

/-- A document is converted by converting each literal by itself. -/
lemma Document.value_convert (settings : Settings) (s : Text) :
    (Document.convert settings s).value
      = (Document.rewrite (fun l => l.convertWith settings) s).value := by
  rw [Document.convert]
  split
  · next h => rw [h, Document.rewrite_nil, Reported.value_pure]
  · rw [Reported.value_bind, Settings.value_target]
    exact Document.value_rewrite_congr 0 fun t _ => (t.toLiteral.value_convertWith settings).symm

/-- A document that is one literal is converted as the literal is. -/
lemma Document.value_convert_of_isLiteral {form : Form} {text : Text}
    (h : IsLiteral [] form text) (settings : Settings) :
    (Document.convert settings text).value
      = ((Literal.mk form text).convertWith settings).value := by
  have happend := Document.value_rewrite_append (l := ⟨form, text⟩)
    (fun l => l.convertWith settings) h
  rw [List.append_nil, rewrite_nil, Reported.value_pure, List.append_nil] at happend
  rw [value_convert, happend]

end Swatch
