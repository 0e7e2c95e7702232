/-
**Quotients printed with a fixed count of decimal places.**

The quotient is rounded to the nearest multiple of the last place, and a tie goes to the even
neighbour.

* `roundHalfEven_spec`: the rounded quotient is at most half a unit away;
* `Binary64.ratio`: the exact value of a finite double that is not negative.
-/

import Inflate.Bytes
import Inflate.Text.Digits

namespace Inflate.Text

/-- The integer nearest to a quotient; of two equally near ones the even one. -/
def roundHalfEven (numerator denominator : Nat) : Nat :=
  let quotient := numerator / denominator
  let remainder := numerator % denominator
  if 2 * remainder < denominator then quotient
  else if denominator < 2 * remainder then quotient + 1
  else quotient + quotient % 2

/-- The rounded quotient is at most half a unit away. -/
theorem roundHalfEven_spec (numerator denominator : Nat) (positive : 0 < denominator) :
    2 * numerator ≤ denominator * (2 * roundHalfEven numerator denominator + 1) ∧
      denominator * (2 * roundHalfEven numerator denominator) ≤ 2 * numerator + denominator := by
  have split := Nat.div_add_mod numerator denominator
  have small := Nat.mod_lt numerator positive
  have expand : ∀ q, denominator * (2 * q) = 2 * (denominator * q) := by
    intro q; rw [Nat.mul_left_comm]
  simp only [roundHalfEven, Nat.mul_add, Nat.mul_one, expand]
  split
  · omega
  · split
    · simp only [Nat.mul_add, Nat.mul_one]; omega
    · rcases Nat.mod_two_eq_zero_or_one (numerator / denominator) with even | odd
      · simp only [even, Nat.add_zero]; omega
      · simp only [odd, Nat.mul_add, Nat.mul_one]; omega

/-- A quotient with `places` digits after the point. -/
def fixed (places numerator denominator : Nat) : String :=
  let units := roundHalfEven (numerator * 10 ^ places) denominator
  let fraction := fillLeft '0' places (Nat.toDigits 10 (units % 10 ^ places))
  decimal (units / 10 ^ places) ++ "." ++ String.ofList fraction

/-! ### Doubles -/

/-- The exact value, as a quotient, of a double that is finite and not negative. -/
def Binary64.ratio (value : Float) : Nat × Nat :=
  let bits := value.toBits.toNat
  let exponent := bits / 2 ^ 52 % 2 ^ 11
  let fraction := bits % 2 ^ 52
  let mantissa := if exponent = 0 then fraction else 2 ^ 52 + fraction
  let scale := max exponent 1
  (mantissa * 2 ^ (scale - 1075), 2 ^ (1075 - scale))

/-- A double with `places` digits after the point. -/
def fixedBinary64 (places : Nat) (value : Float) : String :=
  let exact := Binary64.ratio value
  fixed places exact.1 exact.2

end Inflate.Text
