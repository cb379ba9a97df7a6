import Swatch.Form.Basic
/-!
The settings of a conversion.

* `Settings.target?`: the form to convert to; a name that is no form's leaves colours as they are.
-/

namespace Swatch

/-- What colours are converted to: the name of a form, and whether the result is a function or the
bare components. -/
structure Settings where
  output : Text := "oklch".toList
  functional : Bool := true
  deriving DecidableEq

/-- The form to convert to. -/
def Settings.target? (settings : Settings) : Option Form := Form.ofName? settings.output

end Swatch
