import Swatch.Document.Edit
import Swatch.Proofs.Document.Rewriting
/-!
A converted document is made of the gaps between its literals and of what replaces the literals.

* `gapsFrom`, `weave`: the stretches of a text around spans, and gaps with texts put between them.
* `weave_gaps_text`: with the literals put back between them the gaps are the text.
* `value_rewrite_eq_weave`: a rewritten text is woven from the gaps of the text.
* `applyFrom_eq_weave`: so is a text with edits put in place, from the gaps around the edits.
* `value_convert_eq`: the conversion in one pass, the one by edits and the woven text agree.
-/

namespace Swatch.Document

/-- The stretches of a text from an offset up to a token, between tokens, and behind the last. -/
def gapsFrom (s : Text) (cursor : Nat) : List Token → List Text
  | [] => [s.drop cursor]
  | t :: tokens => (s.drop cursor).take (t.start - cursor) :: gapsFrom s t.stop tokens

/-- The stretches of a text around tokens. -/
def gaps (s : Text) (tokens : List Token) : List Text := gapsFrom s 0 tokens

/-- Gaps with texts between them: a gap, a text, a gap, and so on. -/
def weave : (gaps texts : List Text) → Text
  | gap :: gaps, text :: texts => gap ++ (text ++ weave gaps texts)
  | gaps, _ => gaps.flatten

/-! ### Rewriting is weaving -/

/-- The gap before the first token takes up the character in front of it. -/
lemma weave_gapsFrom_succ {front s : Text} {c : Char} {tokens : List Token} (f : Token → Text)
    (h : ∀ t ∈ tokens, front.length < t.start) :
    weave (gapsFrom (front ++ c :: s) front.length tokens) (tokens.map f)
      = c :: weave (gapsFrom (front ++ c :: s) (front.length + 1) tokens) (tokens.map f) := by
  have hdrop : (front ++ c :: s).drop (front.length + 1) = s := by
    rw [← List.drop_drop, List.drop_left]
    rfl
  cases tokens with
  | nil => simp [gapsFrom, weave, hdrop]
  | cons t tokens =>
      have hlt := h t (by simp)
      have hsub : t.start - front.length = t.start - (front.length + 1) + 1 := by omega
      simp only [gapsFrom, weave, List.map_cons, List.drop_left, hdrop, hsub, List.take_succ_cons,
        List.cons_append]

/-- A rewritten text is woven from its gaps and from what replaces its literals. -/
lemma value_rewrite_eq_weaveFrom (replace : Literal → Reported Text) (front s : Text) :
    (rewrite replace s).value
      = weave (gapsFrom (front ++ s) front.length (Token.scanFrom front.length s))
          ((Token.scanFrom front.length s).map fun t => (replace t.toLiteral).value) := by
  induction s using Literal.scanInduction generalizing front with
  | nil => simp [gapsFrom, weave]
  | literal l rest h ih =>
      rw [value_rewrite_append replace h, ih (front ++ l.text), Token.scanFrom_append h,
        List.append_assoc, List.length_append]
      simp [gapsFrom, weave, Token.stop]
  | skip c s h ih =>
      have hstart : ∀ t ∈ Token.scanFrom (front.length + 1) s, front.length < t.start := by
        have hscan := isScanFrom_iff.mpr (rfl : _ = Token.scanFrom (front ++ [c]).length s)
        rw [List.length_append, List.length_singleton] at hscan
        intro t ht
        have hle := (hscan.standsAt t ht).1
        rw [List.length_append, List.length_singleton] at hle
        exact hle
      rw [value_rewrite_cons replace h, Token.scanFrom_cons h, weave_gapsFrom_succ _ hstart,
        ih (front ++ [c]), List.length_append, List.length_singleton, List.append_assoc,
        List.singleton_append]

lemma value_rewrite_eq_weave (replace : Literal → Reported Text) (s : Text) :
    (rewrite replace s).value
      = weave (gaps s (Token.scan s))
          ((Token.scan s).map fun t => (replace t.toLiteral).value) :=
  value_rewrite_eq_weaveFrom replace [] s

/-- With the literals put back between them the gaps are the text. -/
lemma weave_gaps_text (s : Text) :
    weave (gaps s (Token.scan s)) ((Token.scan s).map fun t => t.text) = s := by
  have h := value_rewrite_eq_weave (fun l => pure l.text) s
  rw [rewrite_text] at h
  exact h.symm

/-! ### So is putting edits in place -/

lemma position_natCast (s : Text) (n : Nat) : Text.position s (n : Int) = min n s.length := by
  have hn : ¬ (n : Int) < 0 := by omega
  simp [Text.position, hn]

lemma slice_natCast (s : Text) (a b : Nat) :
    Text.slice (a : Int) (b : Int) s = (s.drop a).take (b - a) := by
  rw [Text.slice, position_natCast, position_natCast]
  by_cases ha : a ≤ s.length
  · rw [Nat.min_eq_left ha]
    by_cases hb : b ≤ s.length
    · rw [Nat.min_eq_left hb]
    · have hlen : (s.drop a).length ≤ b - a := by rw [List.length_drop]; omega
      rw [Nat.min_eq_right (by omega : s.length ≤ b), List.take_of_length_le hlen,
        List.take_of_length_le (by rw [List.length_drop])]
  · have hdrop : s.drop a = [] := List.drop_of_length_le (by omega)
    simp [Nat.min_eq_right (by omega : s.length ≤ a), hdrop]

lemma sliceFrom_natCast (s : Text) (a : Nat) : Text.sliceFrom (a : Int) s = s.drop a := by
  rw [Text.sliceFrom, position_natCast]
  by_cases ha : a ≤ s.length
  · rw [Nat.min_eq_left ha]
  · rw [Nat.min_eq_right (by omega), List.drop_length, List.drop_of_length_le (by omega)]

/-- The stretches of a text from an offset up to an edit, between edits, and behind the last. -/
def editGapsFrom (s : Text) (cursor : Int) : List Edit → List Text
  | [] => [Text.sliceFrom cursor s]
  | e :: edits => Text.slice cursor e.start s :: editGapsFrom s e.stop edits

/-- The stretches of a text around edits. -/
def editGaps (s : Text) (edits : List Edit) : List Text := editGapsFrom s 0 edits

/-- A text with edits put in place is woven from the gaps around them. -/
lemma applyFrom_eq_weave (s : Text) (cursor : Int) (edits : List Edit) :
    Edit.applyFrom s cursor edits
      = weave (editGapsFrom s cursor edits) (edits.map fun e => e.text) := by
  induction edits generalizing cursor with
  | nil => simp [Edit.applyFrom, editGapsFrom, weave]
  | cons e edits ih =>
      simp only [List.map_cons, Edit.applyFrom, editGapsFrom, weave]
      rw [List.append_assoc, ih e.stop]

/-- The gaps around replacements are those around their tokens. -/
lemma editGapsFrom_replacements (s : Text) (cursor : Nat) (tokens : List Token)
    (f : Token → Text) :
    editGapsFrom s (cursor : Int) ((tokens.map fun t => Replacement.mk t (f t)).map
        Replacement.edit) = gapsFrom s cursor tokens := by
  induction tokens generalizing cursor with
  | nil => simp [editGapsFrom, gapsFrom, sliceFrom_natCast]
  | cons t tokens ih =>
      simp only [List.map_cons, editGapsFrom, gapsFrom, Replacement.edit, slice_natCast]
      rw [← ih t.stop]

/-! ### The two ways of converting a document -/

/-- The values of a list of steps with reports are the values of the steps. -/
lemma value_mapM {α β : Type} (f : α → Reported β) (xs : List α) :
    (xs.mapM f).value = xs.map fun x => (f x).value := by
  induction xs with
  | nil => rfl
  | cons x xs ih =>
      rw [List.mapM_cons, Reported.value_bind, Reported.value_bind, Reported.value_pure, ih,
        List.map_cons]

variable [Elementary]

lemma value_replacements (settings : Settings) (s : Text) :
    (replacements settings s).value
      = (Token.scan s).map fun t => ⟨t, (t.toLiteral.convertWith settings).value⟩ := by
  rw [replacements, Reported.value_bind, value_mapM, Settings.value_target]
  simp only [Reported.value_bind, Reported.value_pure, Literal.value_convertWith]

lemma apply_replacements (settings : Settings) (s : Text) :
    Edit.apply s ((replacements settings s).value.map Replacement.edit)
      = weave (gaps s (Token.scan s))
          ((Token.scan s).map fun t => (t.toLiteral.convertWith settings).value) := by
  have hgaps := editGapsFrom_replacements s 0 (Token.scan s)
    fun t => (t.toLiteral.convertWith settings).value
  rw [value_replacements, Edit.apply, applyFrom_eq_weave, ← Int.natCast_zero, hgaps, List.map_map,
    List.map_map]
  rfl

/-- **A converted document**: converting in one pass and putting the replacements in place are the
same, and both put what each literal by itself becomes between the gaps of the document.  Between
these gaps the literals themselves are the document, and it stays what it is if there is no form to
convert to. -/
theorem value_convert_eq (settings : Settings) (s : Text) :
    (convert settings s).value
        = Edit.apply s ((replacements settings s).value.map Replacement.edit)
      ∧ (convert settings s).value
        = weave (gaps s (Token.scan s))
            ((Token.scan s).map fun t => (t.toLiteral.convertWith settings).value)
      ∧ weave (gaps s (Token.scan s)) ((Token.scan s).map fun t => t.text) = s
      ∧ ((∀ form : Form, settings.output ≠ form.name) → (convert settings s).value = s) := by
  have hwoven := value_convert settings s
  rw [value_rewrite_eq_weave] at hwoven
  refine ⟨hwoven.trans (apply_replacements settings s).symm, hwoven, weave_gaps_text s, ?_⟩
  intro hname
  have hkept : (rewrite (fun l => l.convertWith settings) s).value
      = (rewrite (fun l => pure l.text) s).value := by
    refine value_rewrite_congr 0 fun t _ => ?_
    rw [Literal.value_convertWith, Settings.target?_eq_none hname]
    rfl
  rw [value_convert, hkept, rewrite_text]

end Swatch.Document
