import Swatch.Json.Basic
import Swatch.Settings
/-!
Checking the fields of a request.

* `Problem`: what is wrong with a field, and which one.  It quotes the value that is to blame.
* `Checked`: a value, or all the problems in the order of the fields; `Checked.both` keeps going
  after a problem.
* `Problem.isQuotable`: whether the value that is to blame can be shown in an answer.
* `textField`, `formField`, `switchField`: the kinds of fields.
* `Settings.ofFields`: settings from named fields, each of which has two names.
-/

namespace Swatch

/-- What can be wrong with a request. -/
inductive Problem.Kind where
  | missing
  | notString
  | notForm
  | unclearSwitch
  | notSwitch
  | notObject
  | notJson
  deriving DecidableEq

/-- A step on the way to the place of a problem. -/
inductive Problem.Step where
  | field (name : Text)
  | offset (n : Nat)
  deriving DecidableEq

/-- A problem, its place and the value that is to blame: for a field that is missing, the object
that lacks it. -/
structure Problem where
  kind : Problem.Kind
  place : List Problem.Step
  input : Json

/-! ### Values that an answer quotes -/

/-- Whether a field is left out where an object is quoted. -/
def isHiddenName (name : Text) : Bool := "_sa".toList.isPrefixOf name

mutual

/-- Whether a value holds no NaN and no infinity where it is quoted. -/
def Json.isQuotable : Json → Bool
  | .real x => x.isFinite
  | .array items => itemsQuotable items
  | .object fields => fieldsQuotable fields
  | _ => true

/-- Whether the items of an array can all be quoted. -/
def itemsQuotable : List Json → Bool
  | [] => true
  | x :: xs => Json.isQuotable x && itemsQuotable xs

/-- Whether the fields of an object can all be quoted.  A field counts only if its name is not
hidden and no later field has the name. -/
def fieldsQuotable : List (Text × Json) → Bool
  | [] => true
  | (name, x) :: fields =>
    (Json.isQuotable x || isHiddenName name || fields.any (·.1 == name)) && fieldsQuotable fields

end

/-- Whether the value that is to blame for a problem can be quoted. -/
def Problem.isQuotable (p : Problem) : Bool := p.input.isQuotable

/-! ### Problems in words -/

/-- The code of a kind of problem. -/
def Problem.Kind.code : Problem.Kind → Text
  | .missing => "missing".toList
  | .notString => "string_type".toList
  | .notForm => "literal_error".toList
  | .unclearSwitch => "bool_parsing".toList
  | .notSwitch => "bool_type".toList
  | .notObject => "model_attributes_type".toList
  | .notJson => "json_invalid".toList

/-- The message of a kind of problem. -/
def Problem.Kind.message : Problem.Kind → Text
  | .missing => "Field required".toList
  | .notString => "Input should be a valid string".toList
  | .notForm => "Input should be 'oklch', 'hex', 'rgb' or 'hsl'".toList
  | .unclearSwitch => "Input should be a valid boolean, unable to interpret input".toList
  | .notSwitch => "Input should be a valid boolean".toList
  | .notObject =>
    "Input should be a valid dictionary or object to extract fields from".toList
  | .notJson => "JSON decode error".toList

/-! ### Checks -/

/-- A value, or the problems that were found. -/
abbrev Checked (α : Type) := Except (List Problem) α

/-- Two checked values, or the problems of both. -/
def Checked.both {α β : Type} (x : Checked α) (y : Checked β) : Checked (α × β) :=
  match x, y with
  | .ok a, .ok b => .ok (a, b)
  | .error p, .ok _ => .error p
  | .ok _, .error q => .error q
  | .error p, .error q => .error (p ++ q)

/-- What a check makes of a value, or one problem with it. -/
def checkedAt {α : Type} (place : List Problem.Step) (check : Json → Except Problem.Kind α)
    (x : Json) : Checked α :=
  (check x).mapError fun kind => [⟨kind, place, x⟩]

/-! ### Kinds of fields -/

/-- A field that has to be a string. -/
def textField : Json → Except Problem.Kind Text
  | .string s => .ok s
  | _ => .error .notString

/-- A field that has to be the name of a form. -/
def formField : Json → Except Problem.Kind Form
  | .string s =>
    match Form.ofName? s with
    | some form => .ok form
    | none => .error .notForm
  | _ => .error .notForm

/-- The words that switch something on. -/
def onWords : List Text := ["true", "t", "yes", "y", "on", "1"].map String.toList

/-- The words that switch something off. -/
def offWords : List Text := ["false", "f", "no", "n", "off", "0"].map String.toList

/-- The number past the largest whole number of 64 bits with a sign. -/
def wordBound : Int := 0x8000000000000000

/-- What a whole number switches: one is on and zero is off, and no other number is clear. -/
def switchOfInt (n : Int) : Except Problem.Kind Bool :=
  if n = 1 then .ok true else if n = 0 then .ok false else .error .unclearSwitch

/-- A field that switches something on or off: a truth value, one or zero, or a word in any
case.  An unclear number is told from one that is no switch at all: one that is not whole or that
64 bits do not hold.  The least number of 64 bits is held only if it is written as an integer. -/
def switchField : Json → Except Problem.Kind Bool
  | .bool b => .ok b
  | .integer n => if -wordBound ≤ n && n < wordBound then switchOfInt n else .error .notSwitch
  | .real x =>
    match x.toInt? with
    | some n => if -wordBound < n && n < wordBound then switchOfInt n else .error .notSwitch
    | none => .error .notSwitch
  | .string s =>
    let word := s.map Char.toLower
    if onWords.contains word then .ok true
    else if offWords.contains word then .ok false
    else .error .unclearSwitch
  | _ => .error .notSwitch

/-- A field that has to be given. -/
def required {α : Type} (fields : List (Text × Json)) (place : List Problem.Step) (name : Text)
    (check : Json → Except Problem.Kind α) : Checked α :=
  match Json.field? fields name with
  | some x => checkedAt (place ++ [.field name]) check x
  | none => .error [⟨.missing, place ++ [.field name], .object fields⟩]

/-- A field that may be left out. -/
def optional {α : Type} (fields : List (Text × Json)) (place : List Problem.Step) (name : Text)
    (default : α) (check : Json → Except Problem.Kind α) : Checked α :=
  match Json.field? fields name with
  | some x => checkedAt (place ++ [.field name]) check x
  | none => .ok default

/-- A field with two names, of which the first counts if both are given. -/
def aliased {α : Type} (fields : List (Text × Json)) (first second : Text)
    (default : α) (check : Json → Except Problem.Kind α) : Checked α :=
  match Json.field? fields first with
  | some x => checkedAt [.field first] check x
  | none => optional fields [] second default check

/-- Settings from named fields. -/
def Settings.ofFields (fields : List (Text × Json)) : Checked Settings := do
  let base : Settings := {}
  let (output, functional) ← Checked.both
    (aliased fields "outputFormat".toList "output_format".toList base.output textField)
    (aliased fields "useCssFunctionalSyntax".toList "use_css_syntax".toList base.functional
      switchField)
  return ⟨output, functional⟩

end Swatch
