import Swatch.Proofs.Binary64.Rounding
/-!
The nearest integer of every finite number, a half going up.

What decides between the two integers next to a number is a rounded difference, that of the number
and its floor.  Rounding does not carry it across a half (`half_le_fraction_iff`), so the integer
that is found is the nearest one in exact arithmetic, and what is true of exact rounding is true of
it: it keeps the order, and goes along with an integer that is added.

* `IsNearestUp`: an integer is the nearest one to a rational number, a half going up.
* `IsNearestUp.unique`, `IsNearestUp.mono`, `IsNearestUp.add_intCast`: there is one such integer at
  most, a larger number has no smaller one, and adding an integer adds it to the nearest one.
* `Binary64.roundHalfUp_eq_ok_iff`: what a finite number is rounded to.
* `Binary64.roundHalfUp_spec`: the nearest integer of any number, or why there is none.
-/

namespace Swatch

/-! ### The nearest integer of a rational number -/

/-- An integer is the nearest one to a rational number, and a half goes up. -/
structure IsNearestUp (q : ℚ) (n : ℤ) : Prop where
  sub_half_le : (n : ℚ) - 1 / 2 ≤ q
  lt_add_half : q < n + 1 / 2

namespace IsNearestUp

variable {p q : ℚ} {m n : ℤ}

/-- A larger number has no smaller nearest integer. -/
theorem mono (hp : IsNearestUp p m) (hq : IsNearestUp q n) (h : p ≤ q) : m ≤ n := by
  have hlt : (m : ℚ) < n + 1 := by linarith [hp.sub_half_le, hq.lt_add_half]
  have hint : m < n + 1 := by exact_mod_cast hlt
  omega

theorem unique (hm : IsNearestUp q m) (hn : IsNearestUp q n) : m = n :=
  le_antisymm (hm.mono hn le_rfl) (hn.mono hm le_rfl)

/-- An integer that is added is added to the nearest one. -/
theorem add_intCast (h : IsNearestUp q n) (k : ℤ) : IsNearestUp (q + k) (n + k) := by
  obtain ⟨hlow, hhigh⟩ := h
  constructor <;> push_cast <;> linarith

end IsNearestUp

namespace Binary64

variable {x y : Binary64}

/-! ### What a number is rounded to -/

/-- A finite number is rounded to the nearest integer and to no other. -/
theorem roundHalfUp_eq_ok_iff (hx : x.isFinite = true) {n : ℤ} :
    x.roundHalfUp = .ok n ↔ IsNearestUp x.value n := by
  obtain ⟨m, hm, hlow, hhigh⟩ := exists_nearest_int hx
  have hnearest : IsNearestUp x.value m := ⟨hlow, hhigh⟩
  rw [hm, Except.ok.injEq]
  constructor
  · rintro rfl
    exact hnearest
  · exact hnearest.unique

/-- Other numbers are not rounded, and the fault says which they are. -/
lemma roundHalfUp_of_not_isFinite (hx : x.isFinite = false) :
    x.roundHalfUp = .error (if x.isNaN then .integerOfNaN else .integerOfInfinity) := by
  cases x with
  | finite => exact absurd hx (by simp [isFinite])
  | nan | infinity => rfl

/-- The sum of a number and an integer is not rounded if it is a number of the format. -/
lemma value_add_ofInt (hx : x.isFinite = true) {k : ℤ} (hk : Representable k)
    (hsum : Representable (x.value + k)) :
    (x + ofInt k).isFinite = true ∧ (x + ofInt k).value = x.value + k := by
  obtain ⟨hfinite, hvalue⟩ := (isRounded_ofInt k).exact hk
  have hadd := isRounded_add hx hfinite
  rw [hvalue] at hadd
  exact hadd.exact hsum

/-- **The nearest integer, a half going up**, although the fraction that decides it is rounded.  A
finite number has just one, a larger number no smaller one, and of a number that is larger by an
integer it is larger by that integer, also if that number is computed.  A NaN and an infinity have
none. -/
theorem roundHalfUp_spec (x : Binary64) :
    (x.isFinite = true → ∃ n : ℤ, x.roundHalfUp = .ok n ∧
      (∀ m : ℤ, (m : ℚ) - 1 / 2 ≤ x.value ∧ x.value < m + 1 / 2 ↔ m = n) ∧
      (∀ y : Binary64, y.isFinite = true → x ≤ y → ∃ m, y.roundHalfUp = .ok m ∧ n ≤ m) ∧
      (∀ (k : ℤ) (y : Binary64), y.isFinite = true → y.value = x.value + k →
        y.roundHalfUp = .ok (n + k)) ∧
      (∀ k : ℤ, Representable k → Representable (x.value + k) →
        (x + ofInt k).roundHalfUp = .ok (n + k))) ∧
    (x.isFinite = false →
      x.roundHalfUp = .error (if x.isNaN then .integerOfNaN else .integerOfInfinity)) := by
  refine ⟨fun hx => ?_, roundHalfUp_of_not_isFinite⟩
  obtain ⟨n, hn⟩ := exists_roundHalfUp hx
  have hnearest := (roundHalfUp_eq_ok_iff hx).mp hn
  have hshift {k : ℤ} {y : Binary64} (hy : y.isFinite = true) (hvalue : y.value = x.value + k) :
      y.roundHalfUp = .ok (n + k) := by
    rw [roundHalfUp_eq_ok_iff hy, hvalue]
    exact hnearest.add_intCast k
  refine ⟨n, hn, fun m => ?_, fun y hy hxy => ?_, fun k y => hshift, fun k hk hsum => ?_⟩
  · constructor
    · rintro ⟨hlow, hhigh⟩
      exact IsNearestUp.unique ⟨hlow, hhigh⟩ hnearest
    · rintro rfl
      exact ⟨hnearest.sub_half_le, hnearest.lt_add_half⟩
  · obtain ⟨m, hm⟩ := exists_roundHalfUp hy
    exact ⟨m, hm, hnearest.mono ((roundHalfUp_eq_ok_iff hy).mp hm) ((le_iff hx hy).mp hxy)⟩
  · obtain ⟨hfinite, hvalue⟩ := value_add_ofInt hx hk hsum
    exact hshift hfinite hvalue

/-- A half below zero goes up to zero, and with an integer of 53 bits added up to that one. -/
theorem roundHalfUp_spec_belowZero :
    ((-0.5 : Binary64).isFinite = true ∧ (-0.5 : Binary64).roundHalfUp = .ok 0 ∧
      ∀ m : ℤ, (m : ℚ) - 1 / 2 ≤ (-0.5 : Binary64).value ∧ (-0.5 : Binary64).value < m + 1 / 2
        ↔ m = 0) ∧
      ((0.5 : Binary64).isFinite = true ∧ (-0.5 : Binary64) ≤ 0.5 ∧
        ∃ m, (0.5 : Binary64).roundHalfUp = .ok m ∧ 0 ≤ m) ∧
      ((4503599627370495.5 : Binary64).isFinite = true ∧
        (4503599627370495.5 : Binary64).value = (-0.5 : Binary64).value + (2 ^ 52 : ℤ) ∧
        (4503599627370495.5 : Binary64).roundHalfUp = .ok (0 + 2 ^ 52)) ∧
      (Representable (2 ^ 52 : ℤ) ∧ Representable ((-0.5 : Binary64).value + (2 ^ 52 : ℤ)) ∧
        (-0.5 + ofInt (2 ^ 52)).roundHalfUp = .ok (0 + 2 ^ 52)) ∧
      nan.isFinite = false ∧ nan.roundHalfUp = .error .integerOfNaN := by
  have hfinite : (-0.5 : Binary64).isFinite = true := by decide +kernel
  have hround : (-0.5 : Binary64).roundHalfUp = .ok 0 := by decide +kernel
  -- the last number with a half below `2 ^ 52`
  have hdecimal : ((45035996273704955 : Nat) : ℚ) / 10 ^ 1
      = ((2 ^ 53 - 1 : Nat) : ℚ) / 2 ^ 1 := by norm_num
  have hrounded := isRounded_ofScientific 45035996273704955 1
  rw [hdecimal] at hrounded
  obtain ⟨hlarge, hvalue⟩ := hrounded.exact
    (representable_div_pow (by norm_num) (le_unitBits (by norm_num)))
  replace hvalue : (4503599627370495.5 : Binary64).value
      = (-0.5 : Binary64).value + (2 ^ 52 : ℤ) := by
    rw [value_neg, value_half.2]
    exact hvalue.trans (by norm_num)
  have hk : Representable (2 ^ 52 : ℤ) := representable_intCast (by norm_num)
  have hsum : Representable ((-0.5 : Binary64).value + (2 ^ 52 : ℤ)) :=
    hvalue ▸ representable_value _
  obtain ⟨n, hn, hunique, hmono, hshift, hadd⟩ := (roundHalfUp_spec (-0.5)).1 hfinite
  obtain rfl : n = 0 := Except.ok.inj (hn.symm.trans hround)
  have hle : (-0.5 : Binary64) ≤ 0.5 := by decide +kernel
  exact ⟨⟨hfinite, hround, hunique⟩, ⟨value_half.1, hle, hmono _ value_half.1 hle⟩,
    ⟨hlarge, hvalue, hshift _ _ hlarge hvalue⟩, ⟨hk, hsum, hadd _ hk hsum⟩, rfl,
    (roundHalfUp_spec nan).2 rfl⟩

/-- The fraction of the smallest number below zero is rounded to one, and the floor still goes up.
-/
example : (-5e-324 : Binary64) - ofInt (-1) = 1 ∧ (-5e-324 : Binary64).roundHalfUp = .ok 0 := by
  decide +kernel

end Binary64

end Swatch
