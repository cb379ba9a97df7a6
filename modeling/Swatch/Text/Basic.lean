/-!
Texts, as lists of code points, and the ways in which this library takes them apart.

Offsets into a text count code points.

* `Text.span_append`: a run of characters and what follows it make up the text.
* `Text.dropWord?`: what follows a given word.
* `withSign`: a text with a minus sign in front, if there is one.
* `Text.trim`: a text without the characters of a class at its two ends.
-/

-- what holds of every character of a text is decided along the text
attribute [instance (5000)] List.decidableBAll

namespace Swatch

/-- A text is the list of its code points. -/
abbrev Text := List Char

namespace Text

/-- The longest run of characters of a class at the start of a text, and what follows it. -/
def span (p : Char → Bool) (s : Text) : Text × Text := (s.takeWhile p, s.dropWhile p)

theorem span_append (p : Char → Bool) (s : Text) : (span p s).1 ++ (span p s).2 = s :=
  List.takeWhile_append_dropWhile

/-- The longest run of characters of a class, if it is not empty, and what follows it. -/
def run? (p : Char → Bool) (s : Text) : Option (Text × Text) :=
  match span p s with
  | ([], _) => none
  | found => some found

/-- What follows a word that the text starts with. -/
def dropWord? (word : Text) (s : Text) : Option Text := word.isPrefixOf? s

/-- What follows a character that may or may not stand at the start of the text. -/
def dropOptional (c : Char) : Text → Text
  | [] => []
  | d :: s => if d = c then s else d :: s

/-- What follows a word that may or may not stand at the start of the text. -/
def dropOptionalWord (word : Text) (s : Text) : Text := (dropWord? word s).getD s

/-- A text without the characters of a class at its two ends. -/
def trim (p : Char → Bool) (s : Text) : Text :=
  ((s.dropWhile p).reverse.dropWhile p).reverse

/-- A text without the characters of a class at its end. -/
def trimEnd (p : Char → Bool) (s : Text) : Text := (s.reverse.dropWhile p).reverse

/-- A text without a given end, or the text itself if it does not end so. -/
def dropEnd (ending : Text) (s : Text) : Text :=
  ((dropWord? ending.reverse s.reverse).map List.reverse).getD s

/-- Whether a text ends with a character. -/
def endsWith (c : Char) (s : Text) : Bool := s.getLast? == some c

end Text

/-- A sign in front of a text, if there is one. -/
def withSign (negative : Bool) (s : Text) : Text := if negative then '-' :: s else s

end Swatch
