import Mathlib.Algebra.Group.Basic
import Mathlib.Algebra.Order.Ring.Nat

namespace LibRtlSdr.Binary32

/-!
# Whole numbers as single precision floats

A single precision float has 24 significant bits.  A whole number is converted
to the nearest such float, and to the even one of two that are equally near.
Numbers that need no more than 24 significant bits are converted exactly.
-/

/-- The bits of a significand. -/
def significandBits : Nat := 24

/-- The distance of two neighbouring floats of the size of `number`. -/
def spacing (number : Nat) : Nat :=
  2 ^ (number.log2 + 1 - significandBits)

/-- The nearest float, a tie going to the even one. -/
def ofNat (number : Nat) : Nat :=
  let unit := spacing number
  let below := number / unit
  let rest := number % unit
  if unit < 2 * rest ∨ (unit = 2 * rest ∧ below % 2 = 1) then
    (below + 1) * unit
  else
    below * unit

theorem spacing_pos (number : Nat) : 0 < spacing number :=
  Nat.two_pow_pos _

/-- A multiple of the spacing is a float. -/
theorem ofNat_of_dvd
    {number : Nat}
    (whole : spacing number ∣ number) :
    ofNat number = number := by
  have rest : number % spacing number = 0 :=
    Nat.mod_eq_zero_of_dvd whole
  have pos := spacing_pos number
  have noCarry :
      ¬ (spacing number < 2 * (number % spacing number) ∨
        (spacing number = 2 * (number % spacing number) ∧
          number / spacing number % 2 = 1)) := by
    rw [rest]
    omega
  simp only [ofNat]
  rw [if_neg noCarry]
  exact Nat.div_mul_cancel whole

/-- Shifting a number by `exponent` bits makes it that many bits longer. -/
theorem log2_mul_two_pow
    {number : Nat}
    (nonzero : number ≠ 0)
    (exponent : Nat) :
    (number * 2 ^ exponent).log2 = number.log2 + exponent := by
  induction exponent with
  | zero =>
      simp
  | succ exponent inductionHypothesis =>
      have shifted : number * 2 ^ exponent ≠ 0 :=
        Nat.mul_ne_zero nonzero (Nat.two_pow_pos exponent).ne'
      calc
        (number * 2 ^ (exponent + 1)).log2 =
            (2 * (number * 2 ^ exponent)).log2 := by
          rw [Nat.pow_succ, ← Nat.mul_assoc, Nat.mul_comm _ 2]
        _ = (number * 2 ^ exponent).log2 + 1 :=
          Nat.log2_two_mul shifted
        _ = number.log2 + (exponent + 1) := by
          rw [inductionHypothesis, Nat.add_assoc]

/-- Numbers with no more significant bits than a float are converted exactly. -/
theorem ofNat_mul_two_pow
    {significand : Nat}
    (fits : significand < 2 ^ significandBits)
    (exponent : Nat) :
    ofNat (significand * 2 ^ exponent) = significand * 2 ^ exponent := by
  apply ofNat_of_dvd
  rcases Nat.eq_zero_or_pos significand with isZero | pos
  · simp [isZero]
  · have short : significand.log2 < significandBits :=
      (Nat.log2_lt pos.ne').mpr fits
    have divides :
        2 ^ (significand.log2 + exponent + 1 - significandBits) ∣
          2 ^ exponent :=
      Nat.pow_dvd_pow 2 (by omega)
    rw [spacing, log2_mul_two_pow pos.ne']
    exact Dvd.dvd.mul_left divides significand

end LibRtlSdr.Binary32
