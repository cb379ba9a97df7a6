import Swatch.Decimal.Numeral
import Swatch.Json.Basic
import Swatch.Text.Encoding
/-!
Reading JSON.

Besides standard JSON the reader takes `NaN` and the infinities as numbers.  A fault carries what is
left of the text at the offset that is to blame, so that nothing has to be counted on the way.

* `Json.ReadFault`: a fault at an offset, an integer with too many digits, or too many arrays and
  objects within one another.
* `Json.read`: the value of a whole text.
* `Json.Rest`: what a reader leaves is shorter than what it was given, so reading ends.
-/

namespace Swatch.Json

/-- Why a text cannot be read: something is wrong at an offset, an integer is too long, or too many
arrays and objects stand within one another. -/
inductive ReadFault where
  | invalid (offset : Nat)
  | tooManyDigits
  | tooDeep
  deriving DecidableEq

/-- Why reading stops, before its offset is known: the text left at the place that is to blame, or
the limit that is passed. -/
inductive Stop where
  | at (rest : Text)
  | tooManyDigits
  | tooDeep

/-- What is left of a text after something was read from it. -/
abbrev Rest (s : Text) := { rest : Text // rest.length < s.length }

/-- Whether a character may stand between the parts of a value. -/
def isSpace (c : Char) : Bool := c = ' ' || c = '\t' || c = '\n' || c = '\r'

/-- What follows the spaces that may stand at the start. -/
def skipSpaces (s : Text) : Text := s.dropWhile isSpace

theorem length_skipSpaces_le (s : Text) : (skipSpaces s).length ≤ s.length :=
  (List.dropWhile_suffix isSpace).length_le

theorem length_lt_of_skipSpaces {s rest : Text} {c : Char} (h : skipSpaces s = c :: rest) :
    rest.length < s.length := by
  have := length_skipSpaces_le s
  rw [h, List.length_cons] at this
  omega

/-! ### Strings -/

/-- The value of four hexadecimal digits at the start of a text, and what follows them. -/
def hexQuad? : Text → Option (Nat × Text)
  | a :: b :: c :: d :: s =>
    if [a, b, c, d].all isHexDigit then
      some (hexValue [a, b, c, d], s)
    else none
  | _ => none

/-- The character of a backslash and a letter. -/
def escape? : Char → Option Char
  | '"' => some '"'
  | '\\' => some '\\'
  | '/' => some '/'
  | 'b' => some '\x08'
  | 'f' => some '\x0c'
  | 'n' => some '\n'
  | 'r' => some '\r'
  | 't' => some '\t'
  | _ => none

/-- Whether a text goes on after four characters. -/
def moreThanFour (s : Text) : Bool := !(s.drop 4).isEmpty

/-- The character of four digits after `\u`, with a second escape if the first is half a pair.  At
least one character has to follow, as the closing quote does. -/
def unicodeEscape (s : Text) : Except Stop (Char × Text) :=
  if !moreThanFour s then .error (.at ('u' :: s))
  else match hexQuad? s with
    | none => .error (.at ('u' :: s))
    | some (high, rest) =>
      match rest with
      | '\\' :: 'u' :: pair =>
        if isHighSurrogate high && moreThanFour pair then
          match hexQuad? pair with
          | none => .error (.at ('u' :: pair))
          | some (low, rest') =>
            if isLowSurrogate low then .ok (pairChar high low, rest')
            else .ok (unitChar high, rest)
        else .ok (unitChar high, rest)
      | _ => .ok (unitChar high, rest)

theorem length_of_hexQuad? {s rest : Text} {n : Nat} (h : hexQuad? s = some (n, rest)) :
    rest.length < s.length := by
  unfold hexQuad? at h
  split at h
  · split at h
    · obtain ⟨_, rfl⟩ := Prod.mk.injEq .. ▸ Option.some.injEq .. ▸ h
      simp only [List.length_cons]
      omega
    · cases h
  · cases h

theorem length_of_unicodeEscape {s rest : Text} {c : Char}
    (h : unicodeEscape s = .ok (c, rest)) : rest.length < s.length := by
  unfold unicodeEscape at h
  split at h
  · cases h
  · split at h
    · cases h
    · next high rest₀ hq =>
      have hlt := length_of_hexQuad? hq
      split at h
      · next pair =>
        simp only [List.length_cons] at hlt
        split at h
        · split at h
          · cases h
          · next low rest' hp =>
            have := length_of_hexQuad? hp
            split at h
            · simp only [Except.ok.injEq, Prod.mk.injEq] at h
              rw [← h.2]
              omega
            · simp only [Except.ok.injEq, Prod.mk.injEq] at h
              rw [← h.2]
              simpa only [List.length_cons] using hlt
        · simp only [Except.ok.injEq, Prod.mk.injEq] at h
          rw [← h.2]
          simpa only [List.length_cons] using hlt
      · simp only [Except.ok.injEq, Prod.mk.injEq] at h
        exact h.2 ▸ hlt

/-- One character of a string, plain or escaped, and what follows it.  `opening` is the text from
the opening quote on, which is to blame for a string that does not end. -/
def stringChar (opening : Text) : Text → Except Stop (Char × Text)
  | [] => .error (.at opening)
  | c :: s =>
    if c = '\\' then
      match s with
      | [] => .error (.at opening)
      | e :: s =>
        if e = 'u' then unicodeEscape s
        else match escape? e with
          | some x => .ok (x, s)
          | none => .error (.at (c :: e :: s))
    else if c.toNat < 0x20 then .error (.at (c :: s))
    else .ok (c, s)

theorem length_of_stringChar {opening s rest : Text} {c : Char}
    (h : stringChar opening s = .ok (c, rest)) : rest.length < s.length := by
  unfold stringChar at h
  split at h
  · cases h
  · next d s =>
    split at h
    · split at h
      · cases h
      · next e s =>
        simp only [List.length_cons]
        split at h
        · have := length_of_unicodeEscape h
          omega
        · split at h
          · simp only [Except.ok.injEq, Prod.mk.injEq] at h
            rw [← h.2]
            omega
          · cases h
    · split at h
      · cases h
      · simp only [Except.ok.injEq, Prod.mk.injEq] at h
        rw [← h.2, List.length_cons]
        omega

/-- The characters of a string up to its closing quote, and what follows that. -/
def stringBody (opening s : Text) : Except Stop (Text × Text) :=
  if s.head? = some '"' then .ok ([], s.tail)
  else match _h : stringChar opening s with
    | .error stop => .error stop
    | .ok (c, rest) => (stringBody opening rest).map fun (text, left) => (c :: text, left)
termination_by s.length
decreasing_by exact length_of_stringChar (by assumption)

theorem length_of_stringBody {opening s text rest : Text}
    (h : stringBody opening s = .ok (text, rest)) : rest.length < s.length := by
  fun_induction stringBody opening s generalizing text with
  | case1 s hq =>
    cases s with
    | nil => cases hq
    | cons c s =>
      simp only [List.tail_cons, Except.ok.injEq, Prod.mk.injEq] at h
      rw [← h.2]
      exact Nat.lt_succ_self _
  | case2 => cases h
  | case3 s hq c left hc ih =>
    have := length_of_stringChar hc
    cases hb : stringBody opening left with
    | error stop => simp [hb, Except.map] at h
    | ok found =>
      simp only [hb, Except.map, Except.ok.injEq, Prod.mk.injEq] at h
      have := ih (hb.trans (congrArg Except.ok (Prod.ext rfl h.2)))
      omega

/-- The characters of a string, and what follows it, which is shorter. -/
def characters (opening s : Text) : Except Stop (Text × Rest s) :=
  match h : stringBody opening s with
  | .error stop => .error stop
  | .ok (text, rest) => .ok (text, ⟨rest, length_of_stringBody h⟩)

/-! ### Numbers -/

/-- The digits of an integer without a leading zero, and what follows them. -/
def wholeDigits? : Text → Option (Text × Text)
  | '0' :: s => some (['0'], s)
  | s => Text.run? Char.isDigit s

/-- A point and the digits after it, and what follows; nothing if no digit follows a point. -/
def fractionDigits : Text → Text × Text
  | '.' :: s =>
    match Text.run? Char.isDigit s with
    | some (digits, rest) => ('.' :: digits, rest)
    | none => ([], '.' :: s)
  | s => ([], s)

/-- The letter, sign and digits of an exponent, and what follows; nothing if there is no digit. -/
def exponentDigits : Text → Text × Text
  | c :: s =>
    if c = 'e' || c = 'E' then
      let (sign, s') : Text × Text := match s with
        | '+' :: s => (['+'], s)
        | '-' :: s => (['-'], s)
        | s => ([], s)
      match Text.run? Char.isDigit s' with
      | some (digits, rest) => (c :: sign ++ digits, rest)
      | none => ([], c :: s)
    else ([], c :: s)
  | [] => ([], [])

/-- The value of a number as it is written: an integer unless it has a fraction or an exponent. -/
def numberValue (sign whole fraction exponent : Text) : Except Stop Json :=
  if fraction = [] && exponent = [] then
    match readInteger (sign ++ whole) with
    | .ok n => .ok (.integer n)
    | .error _ => .error .tooManyDigits
  else match readNumber (sign ++ whole ++ fraction ++ exponent) with
    | .ok x => .ok (.real x)
    | .error _ => .error (.at [])

/-- A number at the start of a text, and what follows it. -/
def number (s : Text) : Except Stop (Json × Text) :=
  let (sign, digits) : Text × Text := match s with
    | '-' :: rest => (['-'], rest)
    | rest => ([], rest)
  match wholeDigits? digits with
  | none => .error (.at s)
  | some (whole, rest) => do
    let (fraction, rest) := fractionDigits rest
    let (exponent, rest) := exponentDigits rest
    return (← numberValue sign whole fraction exponent, rest)

/-- The words that are values, the numbers that are not finite among them. -/
def words : List (Text × Json) :=
  [("null".toList, .null), ("true".toList, .bool true), ("false".toList, .bool false),
   ("NaN".toList, .real .nan), ("Infinity".toList, .real (.infinity false)),
   ("-Infinity".toList, .real (.infinity true))]

/-- A word or a number at the start of a text, and what follows it. -/
def scalar (s : Text) : Except Stop (Json × Text) :=
  match words.findSome? fun (word, value) => (Text.dropWord? word s).map (value, ·) with
  | some found => .ok found
  | none => number s

/-! ### Values -/

/-- What is left, if it is shorter; a reader that reads nothing is stopped. -/
def shorter (s rest : Text) : Except Stop (Rest s) :=
  if h : rest.length < s.length then .ok ⟨rest, h⟩ else .error (.at s)

/-- How many arrays and objects may be opened within one that is opened now. -/
def opened : Nat → Except Stop Nat
  | 0 => .error .tooDeep
  | depth + 1 => .ok depth

mutual

/-- The value at the start of a text, and what follows it.  At most `depth` arrays and objects may
stand within one another. -/
def value (depth : Nat) (s : Text) : Except Stop (Json × Rest s) :=
  match s with
  | [] => .error (.at [])
  | c :: s =>
    have := length_skipSpaces_le s
    if c = '"' then do
      let (text, ⟨rest, h⟩) ← characters (c :: s) s
      return (.string text, ⟨rest, Nat.lt_succ_of_lt h⟩)
    else if c = '[' then do
      let depth ← opened depth
      match skipSpaces s with
      | ']' :: rest => return (.array [], ← shorter (c :: s) rest)
      | _ =>
        let (xs, ⟨rest, h⟩) ← items depth (skipSpaces s)
        return (.array xs, ⟨rest, by simp only [List.length_cons]; omega⟩)
    else if c = '\x7b' then do
      let depth ← opened depth
      match skipSpaces s with
      | '\x7d' :: rest => return (.object [], ← shorter (c :: s) rest)
      | _ =>
        let (fields, ⟨rest, h⟩) ← members depth (skipSpaces s)
        return (.object fields, ⟨rest, by simp only [List.length_cons]; omega⟩)
    else do
      let (x, rest) ← scalar (c :: s)
      return (x, ← shorter (c :: s) rest)
termination_by (s.length, 0)

/-- The items of an array up to its closing bracket. -/
def items (depth : Nat) (s : Text) : Except Stop (List Json × Rest s) := do
  let (x, ⟨rest, hr⟩) ← value depth s
  match h : skipSpaces rest with
  | ']' :: left => return ([x], ← shorter s left)
  | ',' :: left =>
    have := length_lt_of_skipSpaces h
    have := length_skipSpaces_le left
    let (xs, ⟨last, hl⟩) ← items depth (skipSpaces left)
    return (x :: xs, ⟨last, by omega⟩)
  | other => .error (.at other)
termination_by (s.length, 1)

/-- The members of an object up to its closing brace. -/
def members (depth : Nat) (s : Text) : Except Stop (List (Text × Json) × Rest s) :=
  match s with
  | [] => .error (.at [])
  | c :: s =>
    if c = '"' then do
      let (name, ⟨rest, hr⟩) ← characters (c :: s) s
      match h : skipSpaces rest with
      | ':' :: left =>
        have := length_lt_of_skipSpaces h
        have := length_skipSpaces_le left
        let (x, ⟨rest', hx⟩) ← value depth (skipSpaces left)
        match h' : skipSpaces rest' with
        | '\x7d' :: left' => return ([(name, x)], ← shorter (c :: s) left')
        | ',' :: left' =>
          have := length_lt_of_skipSpaces h'
          have := length_skipSpaces_le left'
          let (fields, ⟨last, hl⟩) ← members depth (skipSpaces left')
          return ((name, x) :: fields, ⟨last, by simp only [List.length_cons]; omega⟩)
        | other => .error (.at other)
      | other => .error (.at other)
    else .error (.at (c :: s))
termination_by (s.length, 0)
decreasing_by all_goals simp_wf; omega

end

/-- The value of a whole text.  Spaces may stand around it, and nothing else.  At most `depth`
arrays and objects may stand within one another. -/
def read (depth : Nat) (s : Text) : Except ReadFault Json :=
  let stopped (stop : Stop) : Except ReadFault Json :=
    match stop with
    | .at rest => .error (.invalid (s.length - rest.length))
    | .tooManyDigits => .error .tooManyDigits
    | .tooDeep => .error .tooDeep
  match value depth (skipSpaces s) with
  | .error stop => stopped stop
  | .ok (x, ⟨rest, _⟩) =>
    match skipSpaces rest with
    | [] => .ok x
    | rest => stopped (.at rest)

end Swatch.Json
