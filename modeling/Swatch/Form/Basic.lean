import Swatch.Fault
/-!
The forms in which a colour is written.

* `Form`: hexadecimal digits, or one of three functions.
* `Form.ofName?`: the form of a name; `ofName?_name` and `name_of_ofName?` say that names and forms
  correspond.
-/

namespace Swatch

/-- A form in which a colour is written. -/
inductive Form where
  | hex
  | rgb
  | hsl
  | oklch
  deriving DecidableEq

namespace Form

/-- The forms, in the order in which they are listed. -/
def all : List Form := [.hex, .rgb, .hsl, .oklch]

/-- The name of a form. -/
def name : Form → Text
  | .hex => "hex".toList
  | .rgb => "rgb".toList
  | .hsl => "hsl".toList
  | .oklch => "oklch".toList

/-- The form of a name. -/
def ofName? (s : Text) : Option Form := all.find? fun form => form.name == s

theorem ofName?_name (form : Form) : ofName? form.name = some form := by
  cases form <;> decide

theorem name_of_ofName? {s : Text} {form : Form} (h : ofName? s = some form) :
    form.name = s := by
  simpa using List.find?_some h

/-- The form of a name, or the fault that there is none. -/
def ofName (s : Text) : Except Fault Form :=
  match ofName? s with
  | some form => .ok form
  | none => .error (.unknownForm s)

end Form

end Swatch
