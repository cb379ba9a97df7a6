import Swatch.Form.Hex
import Swatch.Form.Hsl
import Swatch.Form.Oklch
import Swatch.Form.Rgb
import Swatch.Report
import Swatch.Settings
/-!
Converting the colours of a document.

* `Literal.outcome`: what comes of one literal: a text, nothing, or a fault.
* `Literal.convert`: the text that replaces a literal, which is its own if it does not convert.
* `Document.convert`: a document in one pass, every literal replaced where it stands.
* `Color.convert?`: a single colour.
-/

namespace Swatch

variable [Elementary]

/-- The colour that a text in some form denotes, if it is one. -/
def Form.read (form : Form) (s : Text) : Except Fault (Option Sample) :=
  match form with
  | .hex => Hex.read s
  | .rgb => Rgb.read s
  | .hsl => Hsl.read s
  | .oklch => Oklch.read s

/-- The text of a colour in a form. -/
def Form.write (form : Form) (sample : Sample) (functional : Bool) : Except Fault Text :=
  match form with
  | .hex => Hex.write sample functional
  | .rgb => Rgb.write sample functional
  | .hsl => Hsl.write sample functional
  | .oklch => Oklch.write sample functional

namespace Literal

/-- The colour of a literal, read in lower case and without blanks around it. -/
def sample (literal : Literal) : Except Fault (Option Sample) :=
  literal.form.read (Text.trim isBlank (Text.lower literal.text))

/-- What comes of converting a literal: the text of the clamped colour, nothing if the literal is no
colour, or a fault. -/
def outcome (literal : Literal) (target : Form) (functional : Bool) :
    Except Fault (Option Text) := do
  match ← literal.sample with
  | none => return none
  | some sample => some <$> target.write (← sample.clamped) functional

/-- The text of a converted literal, or none and a report why there is none. -/
def convert? (literal : Literal) (target : Form) (functional : Bool) : Reported (Option Text) :=
  match literal.outcome target functional with
  | .ok (some s) => pure (some s)
  | .ok none => do
    Reported.report (.unrecognized literal)
    return none
  | .error fault => do
    Reported.report (.failed literal fault)
    return none

/-- The text that replaces a literal: its own if there is no target or it does not convert. -/
def convert (literal : Literal) (target : Option Form) (functional : Bool) : Reported Text :=
  match target with
  | none => pure literal.text
  | some target => return (← literal.convert? target functional).getD literal.text

end Literal

/-- The form to convert to, or none and a report that there is none of this name. -/
def Settings.target (settings : Settings) : Reported (Option Form) :=
  match settings.target? with
  | some form => pure (some form)
  | none => do
    Reported.report (.unsupported settings.output)
    return none

/-- The text that replaces a literal under the given settings. -/
def Literal.convertWith (literal : Literal) (settings : Settings) : Reported Text := do
  literal.convert (← settings.target) settings.functional

namespace Document

/-- A text with each literal replaced by what is made of it, from left to right. -/
def rewrite (replace : Literal → Reported Text) : Text → Reported Text
  | [] => pure []
  | c :: s =>
    match Literal.atHead? (c :: s) with
    | some literal => do
      let replacement ← replace literal
      return replacement ++ (← rewrite replace (s.drop (literal.text.length - 1)))
    | none => return c :: (← rewrite replace s)
termination_by s => s.length
decreasing_by all_goals simp only [List.length_drop, List.length_cons]; omega

/-- A document with every colour converted.  An empty one needs no settings. -/
def convert (settings : Settings) (s : Text) : Reported Text :=
  if s = [] then pure []
  else do
    let target ← settings.target
    rewrite (·.convert target settings.functional) s

end Document

/-- A single colour converted, blanks around it left out; none if the text is no colour.  Without a
target the colour is kept as it is. -/
def Color.convert? (settings : Settings) (s : Text) : Reported (Option Text) :=
  match Token.ofWhole? s with
  | none => pure none
  | some token => do
    match ← settings.target with
    | none => return some token.text
    | some target => token.toLiteral.convert? target settings.functional

end Swatch
