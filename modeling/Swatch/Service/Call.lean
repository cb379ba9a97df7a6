import Swatch.Document.Edit
import Swatch.Json.Basic
import Swatch.Service.Validation
/-!
The services and their answers.

What a request asks for is found out before a service comes in: the fields of its body are read and
checked.  What arrives here is a call with the fields that it holds, and how requests become calls
is left open.

* `Request`, `Response`: what comes in and what goes out.
* `Service.Call`: what a service is asked for.
* `Service.Call.answer`: the answers of the services.
* `Service.respondBy`: the answer to a request, by whatever makes calls of requests.
-/

namespace Swatch

/-- A request: a method, a path and the bytes of a body. -/
structure Request where
  method : Text
  path : Text
  body : ByteArray

/-- A stretch of a document with the colour that it held and what took its place. -/
structure ColorPair where
  original : Text
  converted : Text
  start : Nat
  stop : Nat
  deriving DecidableEq

/-- The answer to a request: one of a service, or one that is given before a service is asked. -/
inductive Response where
  | healthy
  | document (css : Text) (colors : List ColorPair)
  | color (text : Text)
  | tokens (colors : List Token)
  | notColor
  | moved
  | notFound
  | wrongMethod
  | unreadable
  | invalid (problems : List Problem)

namespace Response

/-- The status of an answer. -/
def status : Response → Nat
  | .healthy | .document .. | .color _ | .tokens _ => 200
  | .moved => 307
  | .notColor | .unreadable => 400
  | .notFound => 404
  | .wrongMethod => 405
  | .invalid _ => 422

/-- A short explanation of an answer. -/
def detail (s : String) : Json := Json.ofPairs [("detail", .string s.toList)]

/-- The body of an answer; the problems of an invalid request have a form of their own.  What has
moved has no body. -/
def body : Response → Json
  | .healthy => Json.ofPairs [("status", .string "healthy".toList)]
  | .document css colors =>
    Json.ofPairs [("success", .bool true), ("css", .string css),
      ("colors", .array (colors.map fun c =>
        Json.ofPairs [("original", .string c.original), ("converted", .string c.converted),
          ("start", .integer c.start), ("end", .integer c.stop)]))]
  | .color text => Json.ofPairs [("success", .bool true), ("message", .string text)]
  | .tokens colors =>
    Json.ofPairs [("success", .bool true), ("colors", .array (colors.map fun t =>
      Json.ofPairs [("text", .string t.text), ("notation", .string t.form.name),
        ("start", .integer t.start), ("end", .integer t.stop)]))]
  | .moved => .null
  | .notColor => detail "Invalid or unsupported CSS color"
  | .notFound => detail "Not Found"
  | .wrongMethod => detail "Method Not Allowed"
  | .unreadable => detail "There was an error parsing the body"
  | .invalid problems => .array (problems.map fun p =>
      Json.ofPairs [("type", .string p.kind.code), ("msg", .string p.kind.message),
        ("loc", .array (p.place.map fun
          | .field name => .string name
          | .offset n => .integer n))])

end Response

namespace Service

/-- What a service is asked for: whether it is there, a document or a colour to convert, or the
colours of a document. -/
inductive Call where
  | health
  | document (css : Text) (form : Form) (functional : Bool)
  | color (code : Text) (form : Form) (functional : Bool)
  | extract (css : Text)

/-- What becomes of a request before a service is asked: a call, or an answer without one. -/
inductive Delivery where
  | call (call : Call)
  | refused (response : Response)

variable [Elementary]

/-- A document with all its colours converted, and the colours before and after. -/
def convertDocument (settings : Settings) (css : Text) : Response :=
  let replacements := (Document.replacements settings css).value
  .document (Edit.apply css (replacements.map Replacement.edit))
    (replacements.map fun r => ⟨r.token.text, r.text, r.token.start, r.token.stop⟩)

/-- A single colour converted. -/
def convertColor (settings : Settings) (code : Text) : Response :=
  match (Color.convert? settings code).value with
  | some text => .color text
  | none => .notColor

/-- The colours of a document as they are. -/
def extractColors (css : Text) : Response := .tokens (Token.scan css)

/-- The answer of a service to a call. -/
def Call.answer : Call → Response
  | .health => .healthy
  | .document css form functional => convertDocument ⟨form.name, functional⟩ css
  | .color code form functional => convertColor ⟨form.name, functional⟩ code
  | .extract css => extractColors css

/-- The answer to a request, by what makes calls of requests. -/
def respondBy (deliver : Request → Except Fault Delivery) (request : Request) :
    Except Fault Response := do
  match ← deliver request with
  | .call call => return call.answer
  | .refused response => return response

end Service

end Swatch
