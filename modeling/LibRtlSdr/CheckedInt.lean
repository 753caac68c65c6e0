import Mathlib.Order.Lattice

namespace LibRtlSdr.CheckedInt

/-!
# Signed 32-bit arithmetic that fails where C leaves it undefined

An operation on `int` whose exact result is not an `int` has no result, and neither
has a division by zero.  Division rounds towards zero.
-/

/-- The values of an `int`. -/
def Fits (value : Int) : Prop :=
  -2147483648 ≤ value ∧ value ≤ 2147483647

instance (value : Int) : Decidable (Fits value) :=
  inferInstanceAs (Decidable (_ ∧ _))

/-- The value, if it is an `int`. -/
def int? (value : Int) : Option Int :=
  if Fits value then some value else none

/-- `first + second`. -/
def add? (first second : Int) : Option Int :=
  int? (first + second)

/-- `first - second`. -/
def sub? (first second : Int) : Option Int :=
  int? (first - second)

/-- `first * second`. -/
def mul? (first second : Int) : Option Int :=
  int? (first * second)

/-- `-value`. -/
def neg? (value : Int) : Option Int :=
  int? (-value)

/-- `first / second`. -/
def div? (first second : Int) : Option Int :=
  if second = 0 then none else int? (first.tdiv second)

theorem int?_eq_some_iff
    {value result : Int} :
    int? value = some result ↔ Fits value ∧ value = result := by
  unfold int?
  rw [Option.ite_none_right_eq_some, Option.some.injEq]

theorem int?_of_fits
    {value : Int}
    (fits : Fits value) :
    int? value = some value :=
  if_pos fits

theorem int?_of_not_fits
    {value : Int}
    (beyond : ¬ Fits value) :
    int? value = none :=
  if_neg beyond

theorem div?_zero
    (value : Int) :
    div? value 0 = none :=
  if_pos rfl

theorem div?_eq_some_iff
    {first second result : Int} :
    div? first second = some result ↔
      second ≠ 0 ∧ Fits (first.tdiv second) ∧ first.tdiv second = result := by
  unfold div?
  rw [Option.ite_none_left_eq_some, int?_eq_some_iff]

/-- A positive divisor makes no value larger. -/
theorem fits_tdiv
    {value divisor : Int}
    (fits : Fits value)
    (positive : 0 < divisor) :
    Fits (value.tdiv divisor) := by
  have smaller := Int.natAbs_tdiv_le_natAbs value divisor
  rcases Int.le_total 0 value with nonneg | nonpos
  · have sign := Int.tdiv_nonneg nonneg positive.le
    unfold Fits at *
    omega
  · have sign : value.tdiv divisor ≤ 0 := by
      have opposite := Int.tdiv_nonneg (Int.neg_nonneg_of_nonpos nonpos) positive.le
      rw [Int.neg_tdiv] at opposite
      omega
    unfold Fits at *
    omega

/-- An `int` divided by a positive one. -/
theorem div?_of_pos
    {value divisor : Int}
    (fits : Fits value)
    (positive : 0 < divisor) :
    div? value divisor = some (value.tdiv divisor) := by
  unfold div?
  rw [if_neg positive.ne', int?_of_fits (fits_tdiv fits positive)]

/-! ## Division towards zero -/

section Division

variable {value divisor bound : Int}

/-- A quotient is below a bound when the value is below its multiple. -/
theorem tdiv_le_of_le_mul
    (positive : 0 < divisor)
    (below : value ≤ bound * divisor) :
    value.tdiv divisor ≤ bound := by
  have opposite : -bound ≤ (-value).tdiv divisor :=
    Int.le_tdiv_of_mul_le positive (by rw [Int.neg_mul]; omega)
  rw [Int.neg_tdiv] at opposite
  omega

/-- A quotient that is not negative is rounded down. -/
theorem tdiv_le_of_lt_mul
    (positive : 0 < divisor)
    (nonneg : 0 ≤ bound)
    (below : value < (bound + 1) * divisor) :
    value.tdiv divisor ≤ bound := by
  rcases Int.le_total 0 value with valueNonneg | valueNonpos
  · rw [Int.tdiv_eq_ediv_of_nonneg valueNonneg]
    exact Int.le_of_lt_add_one (Int.ediv_lt_of_lt_mul positive below)
  · exact
      tdiv_le_of_le_mul positive
        (valueNonpos.trans (Int.mul_nonneg nonneg positive.le))

/-- A quotient that is not positive is rounded up. -/
theorem le_tdiv_of_mul_lt
    (positive : 0 < divisor)
    (nonpos : bound ≤ 0)
    (above : (bound - 1) * divisor < value) :
    bound ≤ value.tdiv divisor := by
  have mirrored : -value < (-bound + 1) * divisor := by
    have negated : (-bound + 1) * divisor = -((bound - 1) * divisor) := by
      rw [← Int.neg_mul]
      congr 1
      omega
    omega
  have opposite := tdiv_le_of_lt_mul positive (by omega) mirrored
  rw [Int.neg_tdiv] at opposite
  omega

/-- A value is above the multiple before a lower bound of its quotient. -/
theorem mul_lt_of_le_tdiv
    (positive : 0 < divisor)
    (above : bound ≤ value.tdiv divisor) :
    (bound - 1) * divisor < value := by
  have opposite : -value < (-bound + 1) * divisor := by
    apply Int.lt_mul_of_tdiv_lt positive
    rw [Int.neg_tdiv]
    omega
  have negated : (-bound + 1) * divisor = -((bound - 1) * divisor) := by
    rw [← Int.neg_mul]
    congr 1
    omega
  omega

end Division

end LibRtlSdr.CheckedInt
