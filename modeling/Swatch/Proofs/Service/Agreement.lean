import Swatch.Proofs.Document.Gaps
import Swatch.Proofs.Service.Bodies
/-!
The services agree with each other and with the conversions that they offer.

The answer to a request depends on the call that the request becomes and on nothing else.  So the
services are compared for calls, whatever it is that delivers them.  Requests with valid bodies
become calls, and whatever is asked for, there are such bodies.

* `Service.receive_document`, `Service.receive_extract`, `Service.receive_color`: requests with
  valid bodies become calls.
* `Service.answers_iff`: the answer to a request is that to its call.
* `Service.isStretch_colorPairs`: the colours of a converted document lie in it one behind the
  other.
* `Service.weave_colorPairs`, `Service.apply_colorPairs`: put in place they make up the document.
* `Service.answers_agree`: the colours of both services for documents are the same stretches of the
  document, and the answers are what the conversions of `Document` and `Color` give.
-/

namespace Swatch

namespace Service

/-! ### Requests that become calls -/

/-- A request that posts a body to a path. -/
def post (path : Text) (body : ByteArray) : Request := ⟨"POST".toList, path, body⟩

section Request

variable {body : ByteArray} {css code : Text} {form : Form} {functional : Bool}

/-- What is posted to a path of the service becomes the call that the body holds. -/
lemma receive_post {path : Text} {read : ByteArray → Delivery}
    (hroute : route? path = some ("POST".toList, read)) {call : Call}
    (hcall : read body = .call call) : receive (post path body) = .ok (.call call) := by
  have hdelivery : delivery (post path body) = .call call := by
    rw [delivery, post, hroute, ← hcall]
    exact if_pos rfl
  rw [receive, hdelivery]

lemma receive_document (h : IsDocumentBody body css form functional) :
    receive (post "/convert_css".toList body) = .ok (.call (.document css form functional)) := by
  obtain ⟨fields, hfields, hcss, hform, hswitch⟩ := h
  refine receive_post rfl ?_
  simp only [documentCall, calling, hfields, hcss, hform, hswitch, Checked.both]

lemma receive_color (h : IsColorBody body code form functional) :
    receive (post "/convert_color_code".toList body)
      = .ok (.call (.color code form functional)) := by
  obtain ⟨fields, hfields, hcode, hform, hswitch⟩ := h
  refine receive_post rfl ?_
  simp only [colorCall, calling, hfields, hcode, hform, hswitch, Checked.both]

lemma receive_extract (h : IsExtractBody body css) :
    receive (post "/extract_colors".toList body) = .ok (.call (.extract css)) := by
  obtain ⟨fields, hfields, hcss⟩ := h
  refine receive_post rfl ?_
  simp only [extractCall, calling, hfields, hcss]

end Request

end Service

/-! ### Stretches of a document -/

/-- The edit that puts the converted colour in the place of the original one. -/
def ColorPair.edit (c : ColorPair) : Edit := ⟨c.start, c.stop, c.converted⟩

/-- The tokens of a text lie in it one behind the other, and each is the text of its stretch. -/
lemma Token.isStretch_scan (s : Text) :
    (∀ t ∈ Token.scan s, t.start < t.stop ∧ t.stop ≤ s.length ∧
        t.text = (s.drop t.start).take (t.stop - t.start)) ∧
      (Token.scan s).Pairwise fun t u => t.stop ≤ u.start := by
  have hscan : IsScan s (Token.scan s) := isScan_iff_isScanFrom.mpr (isScanFrom_iff.mpr rfl)
  refine ⟨fun t ht => ?_, hscan.ordered.imp And.right⟩
  exact ⟨(hscan.bounds t ht).1, (hscan.bounds t ht).2, hscan.text_eq t ht⟩

namespace Service

variable [Elementary]

/-- The colours of a converted document. -/
def colorPairs (settings : Settings) (css : Text) : List ColorPair :=
  (Token.scan css).map fun t =>
    ⟨t.text, (t.toLiteral.convertWith settings).value, t.start, t.stop⟩

lemma convertDocument_eq (settings : Settings) (css : Text) :
    convertDocument settings css
      = .document (Document.convert settings css).value (colorPairs settings css) := by
  rw [convertDocument, Document.apply_replacements, Document.value_replacements,
    Document.value_convert, Document.value_rewrite_eq_weave, List.map_map]
  rfl

/-- The colours of a document put in place make up the converted document. -/
lemma apply_colorPairs (settings : Settings) (css : Text) :
    Edit.apply css ((colorPairs settings css).map ColorPair.edit)
      = (Document.convert settings css).value := by
  have hedits : (colorPairs settings css).map ColorPair.edit
      = (Document.replacements settings css).value.map Replacement.edit := by
    rw [Document.value_replacements, colorPairs, List.map_map, List.map_map]
    rfl
  rw [hedits, Document.apply_replacements, Document.value_convert, Document.value_rewrite_eq_weave]

/-- The colours of a converted document are the stretches of its tokens, one behind the other. -/
lemma isStretch_colorPairs (settings : Settings) (css : Text) :
    (∀ c ∈ colorPairs settings css, c.start < c.stop ∧ c.stop ≤ css.length ∧
        c.original = (css.drop c.start).take (c.stop - c.start)) ∧
      (colorPairs settings css).Pairwise fun c d => c.stop ≤ d.start := by
  obtain ⟨hstretch, hordered⟩ := Token.isStretch_scan css
  refine ⟨fun c hc => ?_, List.pairwise_map.mpr hordered⟩
  obtain ⟨t, ht, rfl⟩ := List.mem_map.mp hc
  exact hstretch t ht

/-- What stands between the colours of a document makes up the document with the original colours,
and the converted document with the converted ones. -/
lemma weave_colorPairs (settings : Settings) (css : Text) :
    Document.weave (Document.gaps css (Token.scan css))
        ((colorPairs settings css).map ColorPair.original) = css ∧
      Document.weave (Document.gaps css (Token.scan css))
        ((colorPairs settings css).map ColorPair.converted)
          = (Document.convert settings css).value := by
  rw [colorPairs, List.map_map, List.map_map]
  refine ⟨Document.weave_gaps_text css, ?_⟩
  rw [Document.value_convert, Document.value_rewrite_eq_weave]
  rfl

/-! ### Answers -/

/-- A request has an answer with a status, by what makes calls of requests. -/
def Answers (deliver : Request → Except Fault Delivery) (request : Request) (status : Nat)
    (response : Response) : Prop :=
  respondBy deliver request = .ok response ∧ response.status = status

variable {deliver : Request → Except Fault Delivery} {request : Request}

/-- The answer to a request is that to the call that it becomes. -/
lemma answers_iff {call : Call} (h : deliver request = .ok (.call call)) {status : Nat}
    {response : Response} : Answers deliver request status response ↔
      call.answer = response ∧ response.status = status := by
  have hrespond : respondBy deliver request = .ok call.answer := by
    rw [respondBy, h]
    rfl
  rw [Answers, hrespond, Except.ok.injEq]

section Color

variable {code : Text} {form : Form} {functional : Bool}
  (h : deliver request = .ok (.call (.color code form functional)))

include h

/-- A colour comes back if it can be converted, and else the request is rejected. -/
lemma answers_color_iff {status : Nat} {response : Response} :
    Answers deliver request status response ↔
      (∃ r, (Color.convert? ⟨form.name, functional⟩ code).value = some r ∧
        status = 200 ∧ response = .color r) ∨
      ((Color.convert? ⟨form.name, functional⟩ code).value = none ∧
        status = 400 ∧ response = .notColor) := by
  rw [answers_iff h, Call.answer, convertColor]
  cases (Color.convert? ⟨form.name, functional⟩ code).value with
  | none =>
      constructor
      · rintro ⟨rfl, rfl⟩
        exact Or.inr ⟨rfl, rfl, rfl⟩
      · rintro (⟨r, hr, -⟩ | ⟨-, rfl, rfl⟩)
        · exact absurd hr (by simp)
        · exact ⟨rfl, rfl⟩
  | some text =>
      constructor
      · rintro ⟨rfl, rfl⟩
        exact Or.inl ⟨text, rfl, rfl, rfl⟩
      · rintro (⟨r, hr, rfl, rfl⟩ | ⟨hnone, -⟩)
        · exact ⟨congrArg Response.color (Option.some.inj hr), rfl⟩
        · exact absurd hnone (by simp)

lemma answers_color (r : Text) : Answers deliver request 200 (.color r) ↔
    (Color.convert? ⟨form.name, functional⟩ code).value = some r := by
  simp [answers_color_iff h]

lemma answers_notColor : Answers deliver request 400 .notColor ↔
    (Color.convert? ⟨form.name, functional⟩ code).value = none := by
  simp [answers_color_iff h]

/-- There is no other answer. -/
lemma eq_of_answers_color {status : Nat} {response : Response}
    (hanswers : Answers deliver request status response) :
    (status = 200 ∧ ∃ r, response = .color r) ∨ (status = 400 ∧ response = .notColor) := by
  obtain ⟨r, -, hstatus, hresponse⟩ | ⟨-, hstatus, hresponse⟩ := (answers_color_iff h).mp hanswers
  · exact Or.inl ⟨hstatus, r, hresponse⟩
  · exact Or.inr ⟨hstatus, hresponse⟩

end Color

/-- **The services agree**, whatever delivers their calls: a document comes back converted, with the
stretches that another service lists as its colours; the converted ones stand in their places, and
nothing else is changed.  A colour comes back converted if it can be, and else the request is
rejected.  Requests with valid bodies become such calls, and there are bodies that ask for each of
them. -/
theorem answers_agree (css code : Text) (form : Form) (functional : Bool) :
    ((∃ body, IsDocumentBody body css form functional) ∧ (∃ body, IsExtractBody body css) ∧
      ∃ body, IsColorBody body code form functional) ∧
    ((∀ body, IsDocumentBody body css form functional →
        receive (post "/convert_css".toList body)
          = .ok (.call (.document css form functional))) ∧
      (∀ body, IsExtractBody body css →
        receive (post "/extract_colors".toList body) = .ok (.call (.extract css))) ∧
      ∀ body, IsColorBody body code form functional →
        receive (post "/convert_color_code".toList body)
          = .ok (.call (.color code form functional))) ∧
    ∀ deliver : Request → Except Fault Delivery,
      (∀ request, deliver request = .ok (.call (.document css form functional)) →
        ∃ out colors, Answers deliver request 200 (.document out colors) ∧
          out = (Document.convert ⟨form.name, functional⟩ css).value ∧
          (∀ extract, deliver extract = .ok (.call (.extract css)) → ∃ tokens,
            Answers deliver extract 200 (.tokens tokens) ∧
            colors.map (fun c => (c.original, c.start, c.stop))
              = tokens.map fun t => (t.text, t.start, t.stop)) ∧
          (∀ c ∈ colors, c.start < c.stop ∧ c.stop ≤ css.length ∧
            c.original = (css.drop c.start).take (c.stop - c.start)) ∧
          (colors.Pairwise fun c d => c.stop ≤ d.start) ∧
          Edit.apply css (colors.map ColorPair.edit) = out ∧
          Document.weave (Document.gaps css (Token.scan css)) (colors.map ColorPair.original)
            = css ∧
          Document.weave (Document.gaps css (Token.scan css)) (colors.map ColorPair.converted)
            = out) ∧
      ∀ request, deliver request = .ok (.call (.color code form functional)) →
        (∀ r, Answers deliver request 200 (.color r) ↔
          (Color.convert? ⟨form.name, functional⟩ code).value = some r) ∧
        (Answers deliver request 400 .notColor ↔
          (Color.convert? ⟨form.name, functional⟩ code).value = none) ∧
        ∀ status response, Answers deliver request status response →
          (status = 200 ∧ ∃ r, response = .color r) ∨
            (status = 400 ∧ response = .notColor) := by
  refine ⟨⟨exists_isDocumentBody css form functional, exists_isExtractBody css,
      exists_isColorBody code form functional⟩,
    ⟨fun body => receive_document, fun body => receive_extract, fun body => receive_color⟩,
    fun deliver => ⟨fun request h => ?_, fun request h => ?_⟩⟩
  · obtain ⟨hstretch, hordered⟩ := isStretch_colorPairs ⟨form.name, functional⟩ css
    obtain ⟨horiginal, hconverted⟩ := weave_colorPairs ⟨form.name, functional⟩ css
    have hanswer : Answers deliver request 200 (.document _ (colorPairs _ css)) :=
      (answers_iff h).mpr ⟨convertDocument_eq ⟨form.name, functional⟩ css, rfl⟩
    refine ⟨_, _, hanswer, rfl, fun extract hextract => ?_, hstretch, hordered,
      apply_colorPairs _ css, horiginal, hconverted⟩
    refine ⟨_, (answers_iff hextract).mpr ⟨rfl, rfl⟩, ?_⟩
    rw [colorPairs, List.map_map]
    rfl
  · exact ⟨answers_color h, answers_notColor h, fun status response => eq_of_answers_color h⟩

end Service

end Swatch
