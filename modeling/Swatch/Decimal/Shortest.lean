import Swatch.Binary64.Arithmetic
import Swatch.Fault
/-!
The shortest decimal that reads back to a floating-point number, and its text.

* `Decimal`: a whole number of units of a power of ten.
* `Decimal.shortest`: the decimal of the fewest digits that rounds to a given number; of several,
  the nearest to it, and of two equally near the one with the even last digit.
* `Decimal.units_shortest`: whatever its digits, the decimal rounds to the number.
* `Binary64.text`: the text that shows a number exactly.
* `Binary64.plainText`: the same, but an integer is written out without a fraction.
-/

namespace Swatch

/-- The decimal `digits * 10 ^ exponent`. -/
structure Decimal where
  digits : Nat
  exponent : Int
  deriving DecidableEq

namespace Decimal

/-- The decimal digits of a number, most significant first. -/
def digitsOf (n : Nat) : Text := Nat.toDigits 10 n

/-- The number of units of the floating-point number nearest to a decimal. -/
def units (d : Decimal) : Nat :=
  roundUnits (d.digits * 10 ^ d.exponent.toNat * unitsPerOne) (10 ^ (-d.exponent).toNat)

/-- How far after the point the leading digit of a number can stand: the smallest is `5e-324`. -/
def leadingPlaces : Nat := 324

/-- The exponent of the leading digit of a positive number of units. -/
def decade (units : Nat) : Int :=
  (digitsOf (units * 10 ^ leadingPlaces / unitsPerOne)).length - (leadingPlaces + 1)

/-- The multiples of a power of ten next to a number of units, the nearer one first, of two equally
near the even one. -/
def neighbours (units : Nat) (exponent : Int) : List Decimal :=
  let num := units * 10 ^ (-exponent).toNat
  let den := unitsPerOne * 10 ^ exponent.toNat
  let q := num / den
  let r := num % den
  if r = 0 then [⟨q, exponent⟩]
  else if 2 * r < den || (2 * r == den && q % 2 == 0) then [⟨q, exponent⟩, ⟨q + 1, exponent⟩]
  else [⟨q + 1, exponent⟩, ⟨q, exponent⟩]

/-- A decimal of so many digits that rounds to the number of units. -/
def ofCount? (units count : Nat) : Option Decimal :=
  (neighbours units (decade units + 1 - count)).find? (·.units == units)

/-- A decimal without the zeros at its end. -/
def trim (d : Decimal) : Decimal :=
  if h : d.digits = 0 ∨ d.digits % 10 ≠ 0 then d
  else trim ⟨d.digits / 10, d.exponent + 1⟩
termination_by d.digits
decreasing_by omega

/-- The exact decimal expansion of a number of units. -/
def expansion (units : Nat) : Decimal := ⟨units * 5 ^ unitBits, -unitBits⟩

/-- The decimal of the fewest digits that rounds to a number of units.  Seventeen digits always
suffice; the exact expansion after them makes that no part of the definition. -/
def shortest (units : Nat) : Decimal :=
  trim (((List.range 17).findSome? fun n => ofCount? units (n + 1)).getD (expansion units))

/-! ### The shortest decimal reads back -/

theorem units_of_ofCount? {n count : Nat} {d : Decimal} (h : ofCount? n count = some d) :
    d.units = n := by
  simpa using List.find?_some h

/-- A zero at the end of the digits says the same as an exponent that is larger by one. -/
theorem units_mul_ten (digits : Nat) (exponent : Int) :
    units ⟨digits * 10, exponent⟩ = units ⟨digits, exponent + 1⟩ := by
  simp only [units]
  rcases Int.lt_or_le exponent 0 with h | h
  · have h₁ : exponent.toNat = 0 := by omega
    have h₂ : (exponent + 1).toNat = 0 := by omega
    have h₃ : (-exponent).toNat = (-(exponent + 1)).toNat + 1 := by omega
    rw [h₁, h₂, h₃, Nat.pow_succ, Nat.mul_right_comm digits, Nat.mul_right_comm _ 10,
      roundUnits_mul_right _ _ (by decide)]
  · have h₁ : (exponent + 1).toNat = exponent.toNat + 1 := by omega
    have h₂ : (-exponent).toNat = 0 := by omega
    have h₃ : (-(exponent + 1)).toNat = 0 := by omega
    rw [h₁, h₂, h₃, Nat.pow_succ, Nat.mul_right_comm digits 10, Nat.mul_assoc digits]

theorem units_trim (d : Decimal) : (trim d).units = d.units := by
  fun_induction trim d with
  | case1 => rfl
  | case2 d h ih =>
    have hd : d.digits / 10 * 10 = d.digits := by omega
    rw [ih, ← units_mul_ten, hd]

/-- The exact expansion of a number rounds to it. -/
theorem units_expansion {n : Nat} (h : OnGrid n) : (expansion n).units = n := by
  have h₁ : (-(unitBits : Int)).toNat = 0 := by omega
  have h₂ : (-(-(unitBits : Int))).toNat = unitBits := by omega
  have h₃ : 10 ^ unitBits = 5 ^ unitBits * unitsPerOne := by
    rw [unitsPerOne, ← Nat.mul_pow]
  simp only [units, expansion, h₁, h₂, h₃, Nat.pow_zero, Nat.mul_one]
  have hc : 0 < 5 ^ unitBits * unitsPerOne :=
    Nat.mul_pos (Nat.pow_pos (by decide)) unitsPerOne_pos
  have := roundUnits_mul_right n 1 hc
  rw [Nat.one_mul, ← Nat.mul_assoc, roundUnits_of_onGrid h] at this
  exact this

/-- The shortest decimal rounds to the number that it was made from. -/
theorem units_shortest {n : Nat} (h : OnGrid n) : (shortest n).units = n := by
  rw [shortest, units_trim]
  cases hs : (List.range 17).findSome? fun k => ofCount? n (k + 1) with
  | none => exact units_expansion h
  | some d =>
    obtain ⟨k, _, hk⟩ := List.exists_of_findSome?_eq_some hs
    exact units_of_ofCount? hk

/-! ### Text -/

/-- The digits of a decimal with a point: written out while the leading digit has an exponent from
`-4` to `15`, with an exponent of at least two digits otherwise. -/
def text (d : Decimal) : Text :=
  let digits := digitsOf d.digits
  let lead := d.exponent + (digits.length - 1 : Nat)
  if -4 ≤ lead && lead < 16 then
    if lead < 0 then
      '0' :: '.' :: List.replicate (-lead - 1).toNat '0' ++ digits
    else
      let whole := (lead + 1).toNat
      if digits.length ≤ whole then
        digits ++ List.replicate (whole - digits.length) '0' ++ ['.', '0']
      else digits.take whole ++ '.' :: digits.drop whole
  else
    let exponent := digitsOf lead.natAbs
    let mantissa := match digits with
      | c :: d :: rest => c :: '.' :: d :: rest
      | one => one
    mantissa ++ 'e' :: (if lead < 0 then '-' else '+') ::
      List.replicate (2 - exponent.length) '0' ++ exponent

end Decimal

/-- The decimal text of an integer. -/
def integerText (n : Int) : Text := withSign (n < 0) (Decimal.digitsOf n.natAbs)

namespace Binary64

/-- The text that shows a number: the shortest decimal that reads back to it, with a fraction even
if it is an integer, and the sign of a zero. -/
def text : Binary64 → Text
  | .nan => "nan".toList
  | .infinity negative => withSign negative "inf".toList
  | .finite negative units _ =>
    withSign negative (if units = 0 then "0.0".toList else (Decimal.shortest units).text)

/-- The text of a number as a colour shows it: an integer is written out in full and has no
fraction. -/
def plainText : Binary64 → Except Fault Text
  | .nan => .error .integerOfNaN
  | .infinity _ => .error .integerOfInfinity
  | .finite negative units h =>
    .ok <|
      if units % unitsPerOne = 0 then integerText (signed negative (units / unitsPerOne))
      else text (.finite negative units h)

end Binary64

end Swatch
