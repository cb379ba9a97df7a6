import Swatch.Form.Basic
import Swatch.Text.Blank
import Swatch.Text.Hexadecimal
import Swatch.Text.Letter
/-!
Colour literals in a text, and where they stand.

A literal is a colour keyword in any case with an argument in parentheses, or a number sign with
three to eight hexadecimal digits, as many as there are.  The argument ends at the first closing
parenthesis and is not empty.  Whether a literal is a colour is not decided here.

* `Literal.atHead?`: the literal with which a text begins.
* `Token.scan`: the literals of a text from left to right, each with its offset.
* `Token.ofWhole?`: the literal that makes up a text but for the blanks around it.
-/

namespace Swatch

/-- A colour literal: its form and its text. -/
structure Literal where
  form : Form
  text : Text
  deriving DecidableEq

/-- A literal with the offset at which it stands. -/
structure Token extends Literal where
  start : Nat
  deriving DecidableEq

/-- The offset after the last code point of a token. -/
def Token.stop (t : Token) : Nat := t.start + t.text.length

namespace Literal

/-- The keywords of the functions. -/
def keywords : List (Form × Text) :=
  [(.hsl, "hsl".toList), (.hsl, "hsla".toList), (.rgb, "rgb".toList), (.rgb, "rgba".toList),
   (.oklch, "oklch".toList)]

/-- The length of a parenthesised argument at the start of a text, the parentheses included. -/
def argumentLength? : Text → Option Nat
  | '(' :: s =>
    match Text.span (· ≠ ')') s with
    | ([], _) => none
    | (_, []) => none
    | (argument, _ :: _) => some (argument.length + 2)
  | _ => none

/-- The length of a function with a keyword at the start of a text. -/
def functionLength? (keyword s : Text) : Option Nat :=
  ((Text.dropFolded? keyword s).bind argumentLength?).map (keyword.length + ·)

/-- The length of a number sign with hexadecimal digits at the start of a text. -/
def hexLength? : Text → Option Nat
  | '#' :: s =>
    let count := min 8 (s.takeWhile isHexDigit).length
    if count < 3 then none else some (count + 1)
  | _ => none

/-- The form and the length of the literal at the start of a text. -/
def extent? (s : Text) : Option (Form × Nat) :=
  match keywords.findSome? fun (form, keyword) => (functionLength? keyword s).map (form, ·) with
  | some found => some found
  | none => (hexLength? s).map (.hex, ·)

/-- The literal with which a text begins. -/
def atHead? (s : Text) : Option Literal :=
  (extent? s).map fun (form, length) => ⟨form, s.take length⟩

end Literal

namespace Token

/-- The literals of a text that stands at an offset.  After a literal the search goes on behind it,
elsewhere at the next code point. -/
def scanFrom (start : Nat) : Text → List Token
  | [] => []
  | c :: s =>
    match Literal.atHead? (c :: s) with
    | some literal =>
      ⟨literal, start⟩ ::
        scanFrom (start + literal.text.length) (s.drop (literal.text.length - 1))
    | none => scanFrom (start + 1) s
termination_by s => s.length
decreasing_by all_goals simp only [List.length_drop, List.length_cons]; omega

/-- The literals of a text from left to right. -/
def scan (s : Text) : List Token := scanFrom 0 s

/-- The literal that makes up a text, its offset counted from the first character that is not
blank. -/
def ofWhole? (s : Text) : Option Token :=
  let s := Text.trim isBlank s
  match Literal.atHead? s with
  | some literal => if literal.text = s then some ⟨literal, 0⟩ else none
  | none => none

end Token

end Swatch
