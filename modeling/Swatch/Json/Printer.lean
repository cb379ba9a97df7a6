import Swatch.Decimal.Shortest
import Swatch.Json.Basic
import Swatch.Text.Quoted
/-!
Writing JSON.

* `Json.render`: the text of a value, without spaces between its parts.  Characters outside ASCII
  are written as they are.
-/

namespace Swatch.Json

/-- A character within a string. -/
def quotedUnit (c : Char) : Text :=
  if c = '"' || c = '\\' then ['\\', c]
  else if c = '\n' then ['\\', 'n']
  else if c = '\r' then ['\\', 'r']
  else if c = '\t' then ['\\', 't']
  else if c.toNat < 0x20 then '\\' :: 'u' :: hexPadded 4 c.toNat
  else [c]

/-- A string between quotes. -/
def stringText (s : Text) : Text := '"' :: s.flatMap quotedUnit ++ ['"']

/-- A number that is not an integer; the words for a NaN and an infinity are capitalized. -/
def realText : Binary64 → Text
  | .nan => "NaN".toList
  | .infinity negative => withSign negative "Infinity".toList
  | x => x.text

mutual

/-- The text of a value. -/
def render : Json → Text
  | .null => "null".toList
  | .bool b => (if b then "true" else "false").toList
  | .integer n => integerText n
  | .real x => realText x
  | .string s => stringText s
  | .array items => '[' :: [','].intercalate (renderItems items) ++ [']']
  | .object fields => '\x7b' :: [','].intercalate (renderFields fields) ++ ['\x7d']

/-- The texts of the items of an array. -/
def renderItems : List Json → List Text
  | [] => []
  | x :: xs => render x :: renderItems xs

/-- The texts of the fields of an object. -/
def renderFields : List (Text × Json) → List Text
  | [] => []
  | (name, x) :: fields => (stringText name ++ ':' :: render x) :: renderFields fields

end

end Swatch.Json
