import Swatch.Binary64.Basic
import Swatch.Text.Basic
/-!
JSON values.

* `Json`: a value; an integer is told apart from a number with a fraction or an exponent.
* `Json.ofPairs`: an object.
* `Json.field?`: the value of a field of an object, the last one if the name is given twice.
-/

namespace Swatch

/-- A JSON value. -/
inductive Json where
  | null
  | bool (b : Bool)
  | integer (n : Int)
  | real (x : Binary64)
  | string (s : Text)
  | array (items : List Json)
  | object (fields : List (Text × Json))

/-- The object of the given fields, whose names are string literals. -/
def Json.ofPairs (fields : List (String × Json)) : Json :=
  .object (fields.map fun (name, x) => (name.toList, x))

/-- The value of a field of an object: the last one of the name. -/
def Json.field? (fields : List (Text × Json)) (name : Text) : Option Json :=
  (fields.reverse.find? (·.1 == name)).map (·.2)

end Swatch
