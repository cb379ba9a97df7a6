/-!
Binary floating-point numbers of 64 bits, as exact mathematical objects.

A finite number is a sign and a whole number of *units* of `2 ^ -1074`, the smallest positive
number of the format; the units of a number lie on the grid of 53 significant bits.  Everything
an operation has to decide is thereby a question about natural numbers.

* `Binary64.round`: the number nearest to a quotient, a half going to the even neighbour; too large
  a quotient gives an infinity.
* `onGrid_roundUnits`: what rounding returns lies on the grid, so the range of the type is exactly
  the range of the format.
* `roundUnits_of_onGrid`: a point of the grid is rounded to itself.
* `roundUnits_mul_right`: rounding depends on the quotient alone, not on how it is written.
* `Binary64.place`: the position on the number line, through which numbers are compared; a NaN has
  no place and every comparison with it is false.
-/

-- powers of natural numbers are spelled in one way, whatever algebra is imported
attribute [instance (5000)] instPowNat

namespace Swatch

/-- How many binary digits after the point a number can have. -/
def unitBits : Nat := 1074

/-- How many units make one. -/
def unitsPerOne : Nat := 2 ^ unitBits

/-- The number of units of `2 ^ 1024`, past the largest finite number. -/
def unitsBound : Nat := 2 ^ (unitBits + 1024)

theorem unitsPerOne_pos : 0 < unitsPerOne := Nat.two_pow_pos unitBits

theorem unitsBound_pos : 0 < unitsBound := Nat.two_pow_pos (unitBits + 1024)

theorem unitBits_eq : unitBits = 1074 := rfl

theorem le_unitBits {n : Nat} (h : n ≤ 1074) : n ≤ unitBits := h

theorem unitsPerOne_eq : unitsPerOne = 2 ^ unitBits := rfl

theorem unitsBound_eq : unitsBound = 2 ^ (unitBits + 1024) := rfl

-- the scale of the format is too large to be computed with
attribute [irreducible] unitBits unitsPerOne unitsBound

/-- The whole numbers of units that a finite number can have: below `2 ^ 1024` in value, and with
at most 53 significant bits. -/
def OnGrid (units : Nat) : Prop :=
  units < unitsBound ∧ 2 ^ (units.log2 - 52) ∣ units

instance (units : Nat) : Decidable (OnGrid units) := by
  unfold OnGrid
  infer_instance

/-- A floating-point number of 64 bits.  There is one NaN, and zero has a sign. -/
inductive Binary64 where
  | nan
  | infinity (negative : Bool)
  | finite (negative : Bool) (units : Nat) (onGrid : OnGrid units)
  deriving DecidableEq

/-- The whole number nearest to `num / den`; a half goes to the even neighbour. -/
def nearestEven (num den : Nat) : Nat :=
  let q := num / den
  let r := num % den
  if 2 * r < den then q
  else if den < 2 * r then q + 1
  else q + q % 2

/-- The point of the grid nearest to `num / den` units.  The spacing of the grid around a quotient
is the power of two that leaves 53 significant bits. -/
def roundUnits (num den : Nat) : Nat :=
  let spacing := (num / den).log2 - 52
  nearestEven num (den <<< spacing) <<< spacing

/-! ### Rounding stays on the grid -/

theorem nearestEven_le (num den : Nat) : nearestEven num den ≤ num / den + 1 := by
  unfold nearestEven
  grind

/-- A mantissa of at most `2 ^ 53`, shifted, lies on the grid. -/
theorem pow_log2_sub_dvd {m : Nat} (e : Nat) (hm : m ≤ 2 ^ (53 : Nat)) :
    2 ^ ((m * 2 ^ e).log2 - 52) ∣ m * 2 ^ e := by
  rcases Nat.lt_or_eq_of_le hm with h | h
  · rcases Nat.eq_zero_or_pos m with h0 | h0
    · simp [h0]
    · refine Nat.dvd_trans (Nat.pow_dvd_pow 2 ?_) (Nat.dvd_mul_left _ _)
      have hlt : m * 2 ^ e < 2 ^ (53 + e) := by
        rw [Nat.pow_add]
        exact Nat.mul_lt_mul_of_pos_right h (Nat.two_pow_pos e)
      have := (Nat.log2_lt (Nat.ne_of_gt (Nat.mul_pos h0 (Nat.two_pow_pos e)))).2 hlt
      omega
  · subst h
    rw [← Nat.pow_add, Nat.log2_two_pow]
    exact Nat.pow_dvd_pow 2 (by omega)

/-- The mantissa that rounding chooses has at most 53 bits, or is `2 ^ 53` itself. -/
theorem nearestEven_shift_le (num den : Nat) :
    nearestEven num (den <<< ((num / den).log2 - 52)) ≤ 2 ^ (53 : Nat) := by
  refine Nat.le_trans (nearestEven_le _ _) ?_
  rw [Nat.shiftLeft_eq, ← Nat.div_div_eq_div_mul]
  have hlt : num / den / 2 ^ ((num / den).log2 - 52) < 2 ^ (53 : Nat) := by
    rcases Nat.eq_zero_or_pos (num / den) with h0 | h0
    · simp [h0]
    · rw [Nat.div_lt_iff_lt_mul (Nat.two_pow_pos _), ← Nat.pow_add]
      exact (Nat.log2_lt (Nat.ne_of_gt h0)).1 (by omega)
  omega

/-- Rounding returns a point of the grid. -/
theorem onGrid_roundUnits {num den : Nat} (h : roundUnits num den < unitsBound) :
    OnGrid (roundUnits num den) := by
  refine ⟨h, ?_⟩
  unfold roundUnits
  rw [Nat.shiftLeft_eq]
  exact pow_log2_sub_dvd _ (nearestEven_shift_le num den)

/-! ### What rounding depends on -/

theorem nearestEven_of_dvd {num den : Nat} (hd : 0 < den) (h : den ∣ num) :
    nearestEven num den = num / den := by
  simp [nearestEven, Nat.mod_eq_zero_of_dvd h, hd]

/-- A point of the grid is rounded to itself. -/
theorem roundUnits_of_onGrid {units : Nat} (h : OnGrid units) : roundUnits units 1 = units := by
  unfold roundUnits
  rw [Nat.div_one, Nat.shiftLeft_eq, Nat.shiftLeft_eq, Nat.one_mul,
    nearestEven_of_dvd (Nat.two_pow_pos _) h.2]
  exact Nat.div_mul_cancel h.2

theorem nearestEven_mul_right (num den : Nat) {c : Nat} (hc : 0 < c) :
    nearestEven (num * c) (den * c) = nearestEven num den := by
  have hlt (a b : Nat) : 2 * (a * c) < b * c ↔ 2 * a < b := by
    rw [← Nat.mul_assoc]
    exact Nat.mul_lt_mul_right hc
  have hgt (a b : Nat) : b * c < 2 * (a * c) ↔ b < 2 * a := by
    rw [← Nat.mul_assoc]
    exact Nat.mul_lt_mul_right hc
  simp only [nearestEven, Nat.mul_div_mul_right _ _ hc, Nat.mul_mod_mul_right, hlt, hgt]

/-- Rounding depends on the quotient alone. -/
theorem roundUnits_mul_right (num den : Nat) {c : Nat} (hc : 0 < c) :
    roundUnits (num * c) (den * c) = roundUnits num den := by
  simp only [roundUnits, Nat.mul_div_mul_right _ _ hc, Nat.shiftLeft_eq]
  rw [Nat.mul_right_comm, nearestEven_mul_right _ _ hc]

namespace Binary64

/-- The number nearest to `num / den` units, with the given sign. -/
def round (negative : Bool) (num den : Nat) : Binary64 :=
  if h : roundUnits num den < unitsBound then
    .finite negative (roundUnits num den) (onGrid_roundUnits h)
  else .infinity negative

/-- The zero of each sign. -/
def zero (negative : Bool) : Binary64 := .finite negative 0 ⟨unitsBound_pos, Nat.dvd_zero _⟩

/-- The number nearest to an integer. -/
def ofInt (n : Int) : Binary64 := round (n < 0) (n.natAbs * unitsPerOne) 1

/-- The number nearest to an integer, unless the integer is too large for the format. -/
def ofInt? (n : Int) : Option Binary64 :=
  match ofInt n with
  | .infinity _ => none
  | x => some x

/-- The number nearest to `digits * 10 ^ exponent`. -/
def ofScaled (negative : Bool) (digits : Nat) (exponent : Int) : Binary64 :=
  round negative (digits * 10 ^ exponent.toNat * unitsPerOne) (10 ^ (-exponent).toNat)

instance (n : Nat) : OfNat Binary64 n := ⟨ofInt n⟩

instance : OfScientific Binary64 where
  ofScientific m negative e := ofScaled false m (if negative then -(e : Int) else e)

instance : Inhabited Binary64 := ⟨zero false⟩

/-! ### Order -/

/-- The signed number of units of a finite number; an infinity stands just past the largest finite
number of its sign, and a NaN stands nowhere. -/
def place : Binary64 → Option Int
  | .nan => none
  | .infinity negative => some (if negative then -unitsBound else unitsBound)
  | .finite negative units _ => some (if negative then -units else units)

/-- Whether two places are given and stand in a relation. -/
def related (r : Int → Int → Bool) (x y : Binary64) : Bool :=
  match x.place, y.place with
  | some a, some b => r a b
  | _, _ => false

instance : LT Binary64 := ⟨fun x y => related (· < ·) x y = true⟩

instance : LE Binary64 := ⟨fun x y => related (· ≤ ·) x y = true⟩

instance (x y : Binary64) : Decidable (x < y) := inferInstanceAs (Decidable (_ = true))

instance (x y : Binary64) : Decidable (x ≤ y) := inferInstanceAs (Decidable (_ = true))

/-- Numbers at the same place: zero equals zero whatever the signs, and no NaN equals anything. -/
instance : BEq Binary64 := ⟨related (· == ·)⟩

/-- The first of two numbers unless the second is strictly larger. -/
def max (x y : Binary64) : Binary64 := if x < y then y else x

/-- The first of two numbers unless the second is strictly smaller. -/
def min (x y : Binary64) : Binary64 := if y < x then y else x

/-- A number held between two bounds.  The bounds give way to the number when they are equal to it
or one of the three is a NaN, as `min` and `max` keep their first argument then. -/
def clamp (x lo hi : Binary64) : Binary64 := max lo (min hi x)

/-- Whether a number is neither infinite nor a NaN. -/
def isFinite : Binary64 → Bool
  | .finite .. => true
  | _ => false

/-- Whether a number is a NaN. -/
def isNaN : Binary64 → Bool
  | .nan => true
  | _ => false

/-- The integer that a whole number is. -/
def toInt? : Binary64 → Option Int
  | .finite negative units _ =>
    if units % unitsPerOne = 0 then
      some (if negative then -(units / unitsPerOne : Nat) else (units / unitsPerOne : Nat))
    else none
  | _ => none

end Binary64

end Swatch
