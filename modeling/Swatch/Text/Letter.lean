import Swatch.Text.Basic
/-!
Letters of either case, as far as the keywords and digits of colours can show.

Two rules differ: a keyword is *found* whatever its case, and then the long s stands for an s; a
colour is *read* in lower case, and the long s is a lower-case letter already.  The Kelvin sign is a
capital k for both.  No other letter outside ASCII meets a letter of a keyword.

* `foldLetter`: the letter that a character stands for where keywords are found.
* `lowerLetter`: the character in lower case.
-/

namespace Swatch

/-- The Kelvin sign, a capital k by name. -/
def kelvinSign : Char := '\u212a'

/-- The long s, a lower-case s of old print. -/
def longS : Char := '\u017f'

/-- A character in lower case. -/
def lowerLetter (c : Char) : Char := if c = kelvinSign then 'k' else c.toLower

/-- The lower-case letter that a character stands for where keywords are found. -/
def foldLetter (c : Char) : Char := if c = longS then 's' else lowerLetter c

/-- A text in lower case. -/
def Text.lower (s : Text) : Text := s.map lowerLetter

/-- What follows a word, given in lower case, that the text starts with in any case. -/
def Text.dropFolded? : (word s : Text) → Option Text
  | [], s => some s
  | _ :: _, [] => none
  | w :: word, c :: s => if foldLetter c = w then Text.dropFolded? word s else none

end Swatch
