import Swatch.Decimal.Numeral
/-!
The components of a colour, and the parts of which a colour function is made.

A function is looked for at every position of a text, and the leftmost one counts.  What stands at
a position is taken apart in one way only, because each part ends where a character comes that it
cannot hold.

* `Components`: the texts of three components and of an alpha.
* `Components.leftmost?`: the components at the first position where a reader finds any.
* `Parts.integer?`, `Parts.decimal?`, `Parts.percentage?`: the texts of numbers.
* `Parts.open?`, `Parts.alphaAndClose?`: how a function begins, and how it ends.
* `readAlpha`: the number of an alpha.
-/

namespace Swatch

/-- The texts of the components of a colour. -/
structure Components where
  first : Text
  second : Text
  third : Text
  alpha : Option Text
  deriving DecidableEq

/-- The components that a reader finds at the leftmost position, and what follows them. -/
def Components.leftmost? (read? : Text → Option (Components × Text)) :
    Text → Option (Components × Text)
  | [] => read? []
  | c :: s =>
    match read? (c :: s) with
    | some found => some found
    | none => leftmost? read? s

/-! ### Parts of a function -/

namespace Parts

/-- Whether a character may stand in a number with a fraction. -/
def isDecimalChar (c : Char) : Bool := c.isDigit || c = '.'

/-- Whether a character separates components: a comma or a blank. -/
def isSeparator (c : Char) : Bool := c = ',' || isBlank c

/-- What follows blanks that may stand at the start. -/
def skipBlanks (s : Text) : Text := s.dropWhile isBlank

/-- What follows a run of separators, of which there is at least one. -/
def skipRun? (p : Char → Bool) (s : Text) : Option Text := (Text.run? p s).map (·.2)

/-- Digits with a minus sign that may stand in front. -/
def integer? : Text → Option (Text × Text)
  | '-' :: s => (Text.run? Char.isDigit s).map fun (digits, s) => ('-' :: digits, s)
  | s => Text.run? Char.isDigit s

/-- Digits and points. -/
def decimal? (s : Text) : Option (Text × Text) := Text.run? isDecimalChar s

/-- Digits and points, with a percent sign that may follow and belongs to them. -/
def percentage? (s : Text) : Option (Text × Text) :=
  (decimal? s).map fun (digits, s) =>
    match s with
    | '%' :: s => (digits ++ ['%'], s)
    | s => (digits, s)

/-- The word of a function, with an `a` that may follow if the function has two names, up to its
parenthesis. -/
def open? (word : Text) (twoNames : Bool) (s : Text) : Option Text := do
  let s ← Text.dropWord? word s
  Text.dropWord? ['('] (if twoNames then Text.dropOptional 'a' s else s)

/-- An alpha that may stand after a mark, and the closing parenthesis. -/
def alphaAndClose? (isMark : Char → Bool) (s : Text) : Option (Option Text × Text) :=
  match skipBlanks s with
  | c :: rest =>
    if isMark c then do
      let (alpha, s) ← percentage? (skipBlanks rest)
      return (some alpha, ← Text.dropWord? [')'] s)
    else (Text.dropWord? [')'] s).map (none, ·)
  | [] => none

end Parts

/-! ### Numbers of components -/

/-- The number of an alpha: in hundredths with a percent sign at the end, as written without. -/
def readAlpha : Option Text → Except Fault (Option Binary64)
  | none => .ok none
  | some s =>
    some <$> if Text.endsWith '%' s then readPercentage s else readNumber s

end Swatch
