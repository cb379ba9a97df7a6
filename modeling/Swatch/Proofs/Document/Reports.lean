import Swatch.Proofs.Document.Cut
import Swatch.Proofs.Document.Intermediate
/-!
What the conversion of a document reports.

A fault in one literal goes no further than this literal: it is reported, the literal stays as it
is, and the search goes on behind it.  A document is thus made of literals of which each is
converted as if it stood alone, and so are its reports.

* `Literal.Fate`: what becomes of a literal, by the step at which its conversion ends.
* `Literal.fate_convert`: every literal has a fate, so no fault is left over.
* `Document.reports_rewrite`: the reports of a rewritten text are those of its literals, in order.
* `IsLiteral.convert_text`: a literal that stands alone is converted like one in a document.
* `Document.convert_eq_of_alone`: texts and reports of a document, literal by literal.
-/

namespace Swatch

/-! ### The reports of a text -/

namespace Document

/-- The reports of a rewritten text are those of its literals, in order. -/
lemma reports_rewrite (replace : Literal → Reported Text) (start : Nat) (s : Text) :
    (rewrite replace s).reports
      = (Token.scanFrom start s).flatMap fun t => (replace t.toLiteral).reports := by
  induction s using Literal.scanInduction generalizing start with
  | nil => simp
  | literal l rest h ih =>
      rw [rewrite_append replace h, Token.scanFrom_append h, List.flatMap_cons, ← ih]
      simp
  | skip c s h ih =>
      rw [rewrite_cons replace h, Token.scanFrom_cons h, ← ih]
      simp

/-- The reports of a list of steps are those of the steps, in order. -/
lemma reports_mapM {α β : Type} (f : α → Reported β) (xs : List α) :
    (xs.mapM f).reports = xs.flatMap fun x => (f x).reports := by
  induction xs with
  | nil => rfl
  | cons x xs ih =>
      rw [List.mapM_cons, List.flatMap_cons, ← ih]
      simp

end Document

lemma Settings.reports_target {settings : Settings} (h : settings.target? = none) :
    settings.target.reports = [.unsupported settings.output] := by
  rw [Settings.target, h]
  rfl

variable [Elementary]

/-! ### What becomes of a literal -/

/-- What becomes of a literal: the text in its place, and what is reported of it.  Reading may find
no colour, and reading, clamping and writing may each fail. -/
inductive Literal.Fate (l : Literal) (target : Form) (functional : Bool) :
    Text → List Report → Prop where
  | converted {s c : Sample} {text : Text} (hread : l.sample = .ok (some s))
      (hclamp : s.clamped = .ok c) (hwrite : target.write c functional = .ok text) :
      Fate l target functional text []
  | unrecognized (hread : l.sample = .ok none) :
      Fate l target functional l.text [.unrecognized l]
  | unread {fault : Fault} (hread : l.sample = .error fault) :
      Fate l target functional l.text [.failed l fault]
  | unclamped {s : Sample} {fault : Fault} (hread : l.sample = .ok (some s))
      (hclamp : s.clamped = .error fault) :
      Fate l target functional l.text [.failed l fault]
  | unwritten {s c : Sample} {fault : Fault} (hread : l.sample = .ok (some s))
      (hclamp : s.clamped = .ok c) (hwrite : target.write c functional = .error fault) :
      Fate l target functional l.text [.failed l fault]

namespace Literal

variable {l : Literal} {target : Form} {functional : Bool}

lemma convert_of_some {text : Text} (h : l.outcome target functional = .ok (some text)) :
    l.convert (some target) functional = ⟨text, []⟩ := by
  rw [convert, convert?, h]
  rfl

lemma convert_of_none (h : l.outcome target functional = .ok none) :
    l.convert (some target) functional = ⟨l.text, [.unrecognized l]⟩ := by
  rw [convert, convert?, h]
  rfl

lemma convert_of_error {fault : Fault} (h : l.outcome target functional = .error fault) :
    l.convert (some target) functional = ⟨l.text, [.failed l fault]⟩ := by
  rw [convert, convert?, h]
  rfl

/-- Every literal has a fate: whatever fails on the way is reported. -/
lemma fate_convert (l : Literal) (target : Form) (functional : Bool) :
    l.Fate target functional (l.convert (some target) functional).value
      (l.convert (some target) functional).reports := by
  cases hread : l.sample with
  | error fault =>
      have ho : l.outcome target functional = .error fault := by rw [outcome, hread]; rfl
      rw [convert_of_error ho]
      exact .unread hread
  | ok found =>
      cases found with
      | none =>
          have ho : l.outcome target functional = .ok none := by rw [outcome, hread]; rfl
          rw [convert_of_none ho]
          exact .unrecognized hread
      | some s =>
          cases hclamp : s.clamped with
          | error fault =>
              have ho : l.outcome target functional = .error fault := by
                rw [outcome, hread]
                change (s.clamped >>= fun c => some <$> target.write c functional) = _
                rw [hclamp]
                rfl
              rw [convert_of_error ho]
              exact .unclamped hread hclamp
          | ok c =>
              have ho := outcome_of_sample hread hclamp target functional
              cases hwrite : target.write c functional with
              | error fault =>
                  rw [hwrite] at ho
                  rw [convert_of_error ho]
                  exact .unwritten hread hclamp hwrite
              | ok text =>
                  rw [hwrite] at ho
                  rw [convert_of_some ho]
                  exact .converted hread hclamp hwrite

end Literal

/-! ### The reports of a document -/

namespace Document

/-- The replacements come with the report on the form and then those of the tokens in order. -/
lemma reports_replacements (settings : Settings) (s : Text) :
    (replacements settings s).reports = settings.target.reports ++
      (Token.scan s).flatMap fun t =>
        (t.toLiteral.convert settings.target? settings.functional).reports := by
  rw [replacements, Reported.reports_bind, reports_mapM, Settings.value_target]
  simp

/-- So does the document, unless it is empty. -/
lemma reports_convert {settings : Settings} {s : Text} (hs : s ≠ []) :
    (convert settings s).reports = settings.target.reports ++
      (Token.scan s).flatMap fun t =>
        (t.toLiteral.convert settings.target? settings.functional).reports := by
  rw [convert, if_neg hs, Reported.reports_bind, reports_rewrite _ 0, Settings.value_target]
  rfl

end Document

/-- A literal that stands alone is converted like one in a document. -/
lemma IsLiteral.convert_text {rest : Text} {l : Literal} (h : IsLiteral rest l.form l.text)
    (settings : Settings) : Document.convert settings l.text = l.convertWith settings := by
  have halone : IsLiteral [] l.form l.text := h.of_stops fun _ => Text.stops_nil _
  have hrewrite (replace : Literal → Reported Text) :
      Document.rewrite replace l.text = replace l := by
    have hsplit := Document.rewrite_append replace halone
    rw [List.append_nil, Document.rewrite_nil] at hsplit
    simpa using hsplit
  rw [Document.convert, if_neg h.ne_nil, Literal.convertWith]
  exact congrArg _ (funext fun target => hrewrite _)

/-- A token of a text, alone, is converted like the literal that it is. -/
lemma Token.convert_text {s : Text} {t : Token} (ht : t ∈ Token.scan s) (target : Form)
    (functional : Bool) : Document.convert ⟨target.name, functional⟩ t.text
      = t.toLiteral.convert (some target) functional := by
  obtain ⟨rest, hl⟩ := Token.isLiteral_of_mem_scan ht
  rw [hl.convert_text, Literal.convertWith, Settings.target_name, pure_bind]

/-! ### Documents -/

namespace Document

/-- The texts that replace the tokens of a text, each of them alone. -/
lemma map_value_convert (settings : Settings) {α : Type} (f : Token → Text → α) (s : Text) :
    ((Token.scan s).map fun t => f t (t.toLiteral.convertWith settings).value)
      = (Token.scan s).map fun t => f t (convert settings t.text).value := by
  refine List.map_congr_left fun t ht => ?_
  obtain ⟨rest, hl⟩ := Token.isLiteral_of_mem_scan ht
  rw [hl.convert_text]

section Named

variable (target : Form) (functional : Bool) (s : Text)

/-- The reports of the tokens of a text are those of each of them alone. -/
lemma flatMap_reports_convert :
    ((Token.scan s).flatMap fun t => (t.toLiteral.convert (some target) functional).reports)
      = (Token.scan s).flatMap fun t => (convert ⟨target.name, functional⟩ t.text).reports := by
  refine List.flatMap_congr fun t ht => ?_
  rw [Token.convert_text ht]

lemma reports_convert_name : (convert ⟨target.name, functional⟩ s).reports
    = (Token.scan s).flatMap fun t => (convert ⟨target.name, functional⟩ t.text).reports := by
  by_cases hs : s = []
  · rw [hs, Token.scan, Token.scanFrom_nil]
    rfl
  · rw [reports_convert hs, Settings.target_name, Settings.target?_name, ← flatMap_reports_convert]
    rfl

lemma reports_replacements_name : (replacements ⟨target.name, functional⟩ s).reports
    = (Token.scan s).flatMap fun t => (convert ⟨target.name, functional⟩ t.text).reports := by
  rw [reports_replacements, Settings.target_name, Settings.target?_name, ← flatMap_reports_convert]
  rfl

end Named

/-- **What a document reports**: if there is a form to convert to, the document is put together from
its tokens as each of them is converted alone, in one pass and as a list of replacements, and so are
the reports.  Each token has its fate: a text that was written for the clamped colour, and no
report, or its own text, and one report of what failed.  If there is no form to convert to, that is
the one report, and the empty document has none. -/
theorem convert_eq_of_alone (settings : Settings) (s : Text) :
    (∀ target : Form, settings.output = target.name →
      convert settings s
          = ⟨weave (gaps s (Token.scan s))
              ((Token.scan s).map fun t => (convert settings t.text).value),
            (Token.scan s).flatMap fun t => (convert settings t.text).reports⟩ ∧
        replacements settings s
          = ⟨(Token.scan s).map fun t => ⟨t, (convert settings t.text).value⟩,
            (Token.scan s).flatMap fun t => (convert settings t.text).reports⟩ ∧
        ∀ t ∈ Token.scan s, t.toLiteral.Fate target settings.functional
          (convert settings t.text).value (convert settings t.text).reports) ∧
    ((∀ form : Form, settings.output ≠ form.name) → s ≠ [] →
      (convert settings s).reports = [.unsupported settings.output] ∧
        (replacements settings s).reports = [.unsupported settings.output]) ∧
    (convert settings []).reports = [] ∧
    (∀ l, (Report.unrecognized l).level = .debug) ∧
    (∀ l fault, (Report.failed l fault).level = .warning) ∧
    ∀ output, (Report.unsupported output).level = .debug := by
  refine ⟨?_, ?_, rfl, fun _ => rfl, fun _ _ => rfl, fun _ => rfl⟩
  · intro target houtput
    obtain ⟨output, functional⟩ := settings
    obtain rfl : output = target.name := houtput
    refine ⟨?_, ?_, fun t ht => ?_⟩
    · have hvalue := value_convert ⟨target.name, functional⟩ s
      rw [value_rewrite_eq_weave, map_value_convert _ (fun _ text => text)] at hvalue
      exact congrArg₂ Reported.mk hvalue (reports_convert_name target functional s)
    · have hvalue := value_replacements ⟨target.name, functional⟩ s
      rw [map_value_convert _ Replacement.mk] at hvalue
      exact congrArg₂ Reported.mk hvalue (reports_replacements_name target functional s)
    · rw [Token.convert_text ht]
      exact t.toLiteral.fate_convert target functional
  · intro houtput hs
    have hnone := Settings.target?_eq_none houtput
    have hempty : ((Token.scan s).flatMap fun t =>
        (t.toLiteral.convert none settings.functional).reports) = [] :=
      List.flatMap_eq_nil_iff.mpr fun _ _ => rfl
    rw [reports_convert hs, reports_replacements, hnone, hempty, Settings.reports_target hnone]
    exact ⟨rfl, rfl⟩

end Document

end Swatch
