import Swatch.Proofs.Json.Reread
import Swatch.Service.Basic
/-!
Bodies of requests that hold what a service asks for.

What a service makes of a body depends on the fields that it reads in it.  A body that holds given
fields always exists: their object, written as JSON in UTF-8, which begins with two characters of
ASCII and so is taken for UTF-8.  Half a surrogate pair is no character, so no body is said to hold
one, and none that is written does.

* `Service.IsDocumentBody`, `Service.IsColorBody`, `Service.IsExtractBody`: bodies that pass the
  checks of a service, and what they hold.
* `Service.exists_bodyFields`: there is a body that holds given fields.
* `Service.exists_isDocumentBody`, `Service.exists_isColorBody`, `Service.exists_isExtractBody`:
  whatever a service is asked for, there is a body that asks for it.
-/

namespace Swatch

/-- The bytes of a text that begins with a brace and a quote begin with these two. -/
lemma Text.bytes_utf8Encode (s : Text) : ('\x7b' :: '"' :: s).utf8Encode.data.toList
    = 0x7b :: 0x22 :: s.utf8Encode.data.toList := by
  simp [List.utf8Encode, String.utf8EncodeChar]

/-- Such a text is taken for UTF-8, and read as it was written. -/
lemma Text.ofBytes?_utf8Encode (s : Text) :
    Text.ofBytes? ('\x7b' :: '"' :: s).utf8Encode = some ('\x7b' :: '"' :: s) := by
  have hdetect : Encoding.detect (0x7b :: 0x22 :: s.utf8Encode.data.toList) = .utf8 := by
    rcases s.utf8Encode.data.toList with _ | ⟨a, _ | ⟨b, bytes⟩⟩ <;> rfl
  rw [Text.ofBytes?, bytes_utf8Encode, hdetect, Encoding.decode?_utf8Encode]
  rfl

namespace Service

/-! ### What a body holds -/

/-- A body holds a document, and the form and the switch to convert it with.  Where half a surrogate
pair stands in the body, what it is said to hold is `U+FFFD`. -/
def IsDocumentBody (body : ByteArray) (css : Text) (form : Form) (functional : Bool) : Prop :=
  ∃ fields, bodyFields body = .ok fields ∧
    required fields bodyPlace "css".toList textField = .ok css ∧
    optional fields bodyPlace "output_format".toList .oklch formField = .ok form ∧
    optional fields bodyPlace switchName true switchField = .ok functional

/-- A body holds a colour, and the form and the switch to convert it with.  Where half a surrogate
pair stands in the body, what it is said to hold is `U+FFFD`. -/
def IsColorBody (body : ByteArray) (code : Text) (form : Form) (functional : Bool) : Prop :=
  ∃ fields, bodyFields body = .ok fields ∧
    required fields bodyPlace "code".toList textField = .ok code ∧
    required fields bodyPlace "target".toList formField = .ok form ∧
    optional fields bodyPlace switchName true switchField = .ok functional

/-- A body holds a document.  Where half a surrogate pair stands in the body, what it is said to
hold is `U+FFFD`. -/
def IsExtractBody (body : ByteArray) (css : Text) : Prop :=
  ∃ fields, bodyFields body = .ok fields ∧
    required fields bodyPlace "css".toList textField = .ok css

/-! ### Bodies that are written -/

/-- There is a body that holds given fields: their object in UTF-8. -/
lemma exists_bodyFields {fields : List (Text × Json)} (hne : fields ≠ [])
    (hplain : ∀ f ∈ fields, f.2.IsPlain) : ∃ body, bodyFields body = .ok fields := by
  obtain ⟨s, hs⟩ := Json.exists_intercalate_eq hne
  have htext : Json.render (.object fields) = '\x7b' :: '"' :: (s ++ ['\x7d']) := by
    rw [Json.render, hs]
    rfl
  have hread : Json.read maxDepth (Json.render (.object fields)) = .ok (.object fields) :=
    Json.read_render_object hplain (by decide)
  have hempty : ¬ (Json.render (.object fields)).utf8Encode.isEmpty = true := by
    rw [htext, ByteArray.isEmpty, ByteArray.size, ← Array.length_toList, Text.bytes_utf8Encode]
    simp
  refine ⟨(Json.render (.object fields)).utf8Encode, ?_⟩
  rw [bodyFields, if_neg hempty, htext, Text.ofBytes?_utf8Encode, ← htext]
  simp only [textFields, hread]

/-- The name of a form passes the check of a field for one. -/
lemma checkedAt_formField (place : List Problem.Step) (form : Form) :
    checkedAt place formField (.string form.name) = .ok form := by
  rw [checkedAt, formField, Form.ofName?_name]
  rfl

variable (css code : Text) (form : Form) (functional : Bool)

/-- Whatever document, form and switch are given, there is a body that holds them. -/
lemma exists_isDocumentBody : ∃ body, IsDocumentBody body css form functional := by
  have hplain : ∀ f ∈ [("css".toList, Json.string css),
      ("output_format".toList, .string form.name), (switchName, .bool functional)],
      f.2.IsPlain := by
    simp [Json.IsPlain.string, Json.IsPlain.bool]
  obtain ⟨body, hbody⟩ := exists_bodyFields (by simp) hplain
  exact ⟨body, _, hbody, rfl, checkedAt_formField _ form, rfl⟩

/-- Whatever colour, form and switch are given, there is a body that holds them. -/
lemma exists_isColorBody : ∃ body, IsColorBody body code form functional := by
  have hplain : ∀ f ∈ [("code".toList, Json.string code),
      ("target".toList, .string form.name), (switchName, .bool functional)], f.2.IsPlain := by
    simp [Json.IsPlain.string, Json.IsPlain.bool]
  obtain ⟨body, hbody⟩ := exists_bodyFields (by simp) hplain
  exact ⟨body, _, hbody, rfl, checkedAt_formField _ form, rfl⟩

/-- Whatever document is given, there is a body that holds it. -/
lemma exists_isExtractBody : ∃ body, IsExtractBody body css := by
  have hplain : ∀ f ∈ [("css".toList, Json.string css)], f.2.IsPlain := by
    simp [Json.IsPlain.string]
  obtain ⟨body, hbody⟩ := exists_bodyFields (by simp) hplain
  exact ⟨body, _, hbody, rfl⟩

end Service

end Swatch
