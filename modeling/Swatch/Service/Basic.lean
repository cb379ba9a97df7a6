import Swatch.Json.Reader
import Swatch.Service.Call
import Swatch.Text.Encoding
/-!
The conversions as a service: requests with a JSON body become calls.

No service depends on any of this.  It is one way to deliver calls, that of the library by which the
services are run: its order of checks, its limits and its answers to requests that reach no service.

* `Service.bodyFields`: the fields of the object that a body is.
* `Service.documentCall`, `Service.colorCall`, `Service.extractCall`: the calls that bodies hold.
* `Service.receive`: the call of a request, or an answer without one.  Only an answer that would
  have to quote a NaN or an infinity is not given.
* `Service.respond`: the answer to a request that is received so.

A text of JSON may hold half a surrogate pair, which is no character.  It is read as `U+FFFD` here
(`unitChar`), so bodies that hold one are not covered.
-/

namespace Swatch

/-- Whether an answer can quote all that it has to quote. -/
def Response.isQuotable : Response → Bool
  | .invalid problems => problems.all Problem.isQuotable
  | _ => true

namespace Service

/-! ### Bodies -/

/-- The place of every problem with a body. -/
def bodyPlace : List Problem.Step := [.field "body".toList]

/-- How many arrays and objects of a body may stand within one another. -/
def maxDepth : Nat := 969

/-- The fields of the object that a text is. -/
def textFields (s : Text) : Except Response (List (Text × Json)) :=
  match Json.read maxDepth s with
  | .ok (.object fields) => .ok fields
  | .ok other => .error (.invalid [⟨.notObject, bodyPlace, other⟩])
  | .error (.invalid offset) =>
    .error (.invalid [⟨.notJson, bodyPlace ++ [.offset offset], .object []⟩])
  | .error .tooManyDigits | .error .tooDeep => .error .unreadable

/-- The fields of a body. -/
def bodyFields (body : ByteArray) : Except Response (List (Text × Json)) :=
  if body.isEmpty then .error (.invalid [⟨.missing, bodyPlace, .null⟩])
  else match Text.ofBytes? body with
    | some s => textFields s
    | none => .error .unreadable

/-- The call of a body whose fields are checked first. -/
def calling {α : Type} (check : List (Text × Json) → Checked α) (call : α → Call)
    (body : ByteArray) : Delivery :=
  match bodyFields body with
  | .error response => .refused response
  | .ok fields =>
    match check fields with
    | .ok x => .call (call x)
    | .error problems => .refused (.invalid problems)

/-- The name of the field that chooses between a function and bare components. -/
def switchName : Text := "use_css_syntax".toList

/-- The call of a body that asks for a document to be converted. -/
def documentCall : ByteArray → Delivery :=
  calling
    (fun fields => Checked.both (required fields bodyPlace "css".toList textField) <|
      Checked.both (optional fields bodyPlace "output_format".toList .oklch formField)
        (optional fields bodyPlace switchName true switchField))
    (fun (css, form, functional) => .document css form functional)

/-- The call of a body that asks for a colour to be converted. -/
def colorCall : ByteArray → Delivery :=
  calling
    (fun fields => Checked.both (required fields bodyPlace "code".toList textField) <|
      Checked.both (required fields bodyPlace "target".toList formField)
        (optional fields bodyPlace switchName true switchField))
    (fun (code, form, functional) => .color code form functional)

/-- The call of a body that asks for the colours of a document. -/
def extractCall : ByteArray → Delivery :=
  calling (fun fields => required fields bodyPlace "css".toList textField) .extract

/-! ### Routing -/

/-- The paths of the service, each with its method and the call of a body. -/
def routes : List (Text × Text × (ByteArray → Delivery)) :=
  [("/health".toList, "GET".toList, fun _ => .call .health),
   ("/convert_css".toList, "POST".toList, documentCall),
   ("/convert_color_code".toList, "POST".toList, colorCall),
   ("/extract_colors".toList, "POST".toList, extractCall)]

/-- The method of a path and the call of a body there.  The path may end with the end of a line. -/
def route? (path : Text) : Option (Text × (ByteArray → Delivery)) :=
  (routes.find? (·.1 == Text.dropEnd ['\n'] path)).map (·.2)

/-- Whether a path is one of the service but for the slashes at its end. -/
def isMoved (path : Text) : Bool :=
  Text.endsWith '/' path && (route? (Text.trimEnd (· = '/') path)).isSome

/-- What becomes of a request, whatever an answer has to quote. -/
def delivery (request : Request) : Delivery :=
  match route? request.path with
  | some (method, call) =>
    if request.method = method then call request.body else .refused .wrongMethod
  | none => .refused (if isMoved request.path then .moved else .notFound)

/-- What becomes of a request: its call, or an answer without one, if that can be written. -/
def receive (request : Request) : Except Fault Delivery :=
  match delivery request with
  | .call call => .ok (.call call)
  | .refused response =>
    if response.isQuotable then .ok (.refused response) else .error .unquotable

/-- The answer to a request, if it can be written. -/
def respond [Elementary] (request : Request) : Except Fault Response := respondBy receive request

end Service

end Swatch
