import Swatch.Text.Basic
/-!
Texts as bytes.

* `Encoding`: the ways in which a text may be written as bytes.
* `Encoding.detect`: the encoding of bytes that begin with a mark or with ASCII characters, of which
  the zeros among the first four bytes tell how many bytes a character has.
* `Text.ofBytes?`: the text of bytes whose encoding is not given.
* `Encoding.decode?_utf8Encode`: bytes written as UTF-8 are read back.
* `unitChar`: half a surrogate pair, which stands for no character, is replaced by `U+FFFD`.  A text
  of characters cannot keep it, so nothing is claimed of texts that hold one.
-/

namespace Swatch

/-! ### Surrogates -/

/-- Whether a number is the first half of a surrogate pair. -/
def isHighSurrogate (n : Nat) : Bool := 0xd800 ≤ n && n < 0xdc00

/-- Whether a number is the second half of a surrogate pair. -/
def isLowSurrogate (n : Nat) : Bool := 0xdc00 ≤ n && n < 0xe000

/-- The character of the two halves of a pair. -/
def pairChar (high low : Nat) : Char :=
  Char.ofNat (0x10000 + (high - 0xd800) * 0x400 + (low - 0xdc00))

/-- The character of a number.  Half a pair alone is no character: a text cannot keep it, and it is
replaced. -/
def unitChar (n : Nat) : Char :=
  if isHighSurrogate n || isLowSurrogate n then '\ufffd' else Char.ofNat n

/-- The characters of numbers of sixteen bits, in which a pair is one character. -/
def charsOfUnits : List Nat → Text
  | high :: low :: rest =>
    if isHighSurrogate high && isLowSurrogate low then pairChar high low :: charsOfUnits rest
    else unitChar high :: charsOfUnits (low :: rest)
  | [unit] => [unitChar unit]
  | [] => []

/-! ### Numbers of several bytes -/

/-- Which byte of a number comes first. -/
inductive ByteOrder where
  | big
  | little
  deriving DecidableEq

namespace ByteOrder

/-- The number that bytes make up. -/
def number (order : ByteOrder) (bytes : List UInt8) : Nat :=
  let bytes := match order with
    | .big => bytes
    | .little => bytes.reverse
  bytes.foldl (fun n b => 256 * n + b.toNat) 0

/-- The numbers of two bytes each, if no byte is left over. -/
def pairs? (order : ByteOrder) : List UInt8 → Option (List Nat)
  | a :: b :: rest => (order.number [a, b] :: ·) <$> order.pairs? rest
  | [_] => none
  | [] => some []

/-- The numbers of four bytes each, if no byte is left over. -/
def quads? (order : ByteOrder) : List UInt8 → Option (List Nat)
  | a :: b :: c :: d :: rest => (order.number [a, b, c, d] :: ·) <$> order.quads? rest
  | [] => some []
  | _ => none

end ByteOrder

/-! ### Encodings -/

/-- A way of writing a text as bytes. -/
inductive Encoding where
  | utf8
  | utf16 (order : ByteOrder)
  | utf32 (order : ByteOrder)
  deriving DecidableEq

namespace Encoding

/-- The encoding of bytes that begin with a mark.  In little order the mark of four bytes begins
with the mark of two, so it is tried first. -/
def ofMark? : List UInt8 → Option Encoding
  | 0xff :: 0xfe :: 0 :: 0 :: _ => some (.utf32 .little)
  | 0 :: 0 :: 0xfe :: 0xff :: _ => some (.utf32 .big)
  | 0xff :: 0xfe :: _ => some (.utf16 .little)
  | 0xfe :: 0xff :: _ => some (.utf16 .big)
  | _ => none

/-- The encoding of bytes that begin with an ASCII character, or with two of them if there are
four bytes or more. -/
def ofZeros : List UInt8 → Encoding
  | a :: b :: c :: d :: _ =>
    if a = 0 then (if b = 0 then .utf32 .big else .utf16 .big)
    else if b = 0 then (if c = 0 && d = 0 then .utf32 .little else .utf16 .little)
    else .utf8
  | [a, b] => if a = 0 then .utf16 .big else if b = 0 then .utf16 .little else .utf8
  | _ => .utf8

/-- The encoding that the first bytes tell. -/
def detect (bytes : List UInt8) : Encoding := (ofMark? bytes).getD (ofZeros bytes)

/-- The text of bytes in an encoding. -/
def decode? (bytes : ByteArray) : Encoding → Option Text
  | .utf8 => Array.toList <$> bytes.utf8Decode?
  | .utf16 order => charsOfUnits <$> order.pairs? bytes.data.toList
  | .utf32 order => do
    let numbers ← order.quads? bytes.data.toList
    if numbers.all (· < 0x110000) then some (numbers.map unitChar) else none

/-- Bytes written as UTF-8 are read back. -/
theorem decode?_utf8Encode (s : Text) : decode? s.utf8Encode .utf8 = some s := by
  simp [decode?, List.utf8Decode?_utf8Encode]

end Encoding

/-- The text of bytes whose encoding their beginning tells, without a mark at the start. -/
def Text.ofBytes? (bytes : ByteArray) : Option Text :=
  Text.dropOptional '\ufeff' <$> (Encoding.detect bytes.data.toList).decode? bytes

end Swatch
