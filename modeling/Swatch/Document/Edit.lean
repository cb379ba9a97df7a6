import Swatch.Document.Basic
/-!
Conversions as edits: which stretch of a document is replaced by what.

* `Replacement`: a token with the text that replaces it.
* `Document.replacements`: the replacements of a conversion, in the order of the document.
* `Edit.apply`: a text with stretches of it replaced, from left to right.
-/

namespace Swatch

/-- A token with the text that replaces it. -/
structure Replacement where
  token : Token
  text : Text
  deriving DecidableEq

/-- The replacements of a conversion, one for each literal, in the order of the document. -/
def Document.replacements [Elementary] (settings : Settings) (s : Text) :
    Reported (List Replacement) := do
  let target ← settings.target
  (Token.scan s).mapM fun token =>
    return ⟨token, ← token.toLiteral.convert target settings.functional⟩

/-- The stretch between two offsets is replaced by a text.  A negative offset counts from the
end. -/
structure Edit where
  start : Int
  stop : Int
  text : Text
  deriving DecidableEq

/-- The edit that puts a replacement in place. -/
def Replacement.edit (r : Replacement) : Edit := ⟨r.token.start, r.token.stop, r.text⟩

/-- The position within a text to which an offset leads: a negative one counts from the end, and
what lies outside is brought to the nearer end. -/
def Text.position (s : Text) (offset : Int) : Nat :=
  let i := if offset < 0 then offset + s.length else offset
  min i.toNat s.length

/-- The stretch of a text between two offsets, empty if they are out of order. -/
def Text.slice (start stop : Int) (s : Text) : Text :=
  let first := Text.position s start
  (s.drop first).take (Text.position s stop - first)

/-- The rest of a text from an offset. -/
def Text.sliceFrom (start : Int) (s : Text) : Text := s.drop (Text.position s start)

namespace Edit

/-- A text from an offset with edits put in place: what stands between the end of one edit and the
start of the next is kept. -/
def applyFrom (s : Text) (cursor : Int) : List Edit → Text
  | [] => Text.sliceFrom cursor s
  | e :: edits => Text.slice cursor e.start s ++ e.text ++ applyFrom s e.stop edits

/-- A text with edits put in place. -/
def apply (s : Text) (edits : List Edit) : Text := applyFrom s 0 edits

end Edit

end Swatch
