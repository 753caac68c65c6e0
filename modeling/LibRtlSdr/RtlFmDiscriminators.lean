import LibRtlSdr.CheckedInt
import Mathlib.Tactic.Linarith
import Mathlib.Tactic.Ring

namespace LibRtlSdr.RtlFm

/-!
# The integer discriminators of `rtl_fm`

The product of a sample with the conjugate of the one before turns by the phase step.
`fast_atan2` approximates its angle from a quotient, and `polar_disc_lut` looks it up;
half a turn is 2^14.  All arithmetic is on `int`, and without a result where that
overflows.
-/

open CheckedInt (add? sub? mul? neg? div?)

/-! ## Source -/

/-- `multiply`. -/
def multiply (ar aj br bj : Int) : Option (Int × Int) := do
  let rr ← mul? ar br
  let jj ← mul? aj bj
  let cr ← sub? rr jj
  let jr ← mul? aj br
  let rj ← mul? ar bj
  let cj ← add? jr rj
  return (cr, cj)

/-- `multiply(ar, aj, br, -bj, &cr, &cj)`, with which the discriminators begin. -/
def multiplyConjugate (ar aj br bj : Int) : Option (Int × Int) := do
  let negated ← neg? bj
  multiply ar aj br negated

/-- `angle = base - pi4 * difference / sum`. -/
def fastAngle (base difference sum : Int) : Option Int := do
  let scaled ← mul? 4096 difference
  let quotient ← div? scaled sum
  sub? base quotient

/-- `abs`. -/
def abs? (value : Int) : Option Int :=
  if value < 0 then neg? value else some value

/-- The two branches of `fast_atan2`; `pi4` is 4096 and `pi34` is 12288. -/
def fastAtan2Above (yabs x : Int) : Option Int :=
  if 0 ≤ x then do
    let difference ← sub? x yabs
    let sum ← add? x yabs
    fastAngle 4096 difference sum
  else do
    let difference ← add? x yabs
    let sum ← sub? yabs x
    fastAngle 12288 difference sum

/-- `fast_atan2`. -/
def fastAtan2 (y x : Int) : Option Int :=
  if x = 0 ∧ y = 0 then
    some 0
  else do
    let yabs ← abs? y
    let angle ← fastAtan2Above yabs x
    if y < 0 then neg? angle else some angle

/-- `polar_disc_fast`. -/
def polarDiscFast (ar aj br bj : Int) : Option Int := do
  let product ← multiplyConjugate ar aj br bj
  fastAtan2 product.2 product.1

/-- The end of `polar_disc_lut`, where `x` is an index of the table or its negative. -/
def lookedUp (atanLut : Nat → Int) (cj x : Int) : Option Int :=
  if 0 < x then
    if 0 < cj then some (atanLut x.toNat) else sub? (atanLut x.toNat) 16384
  else
    if 0 < cj then sub? 16384 (atanLut (-x).toNat) else neg? (atanLut (-x).toNat)

/-- `polar_disc_lut` behind the product; `atan_lut_size` is 131072. -/
def lutAngle (atanLut : Nat → Int) (cr cj : Int) : Option Int :=
  -- special cases
  if cr = 0 ∧ cj = 0 then
    some 0
  else if cr = 0 ∧ 0 < cj then
    some 8192
  else if cr = 0 ∧ cj < 0 then
    some (-8192)
  else if cj = 0 ∧ 0 < cr then
    some 0
  else if cj = 0 ∧ cr < 0 then
    some 16384
  else do
    let shifted ← mul? cj 256
    let x ← div? shifted cr
    let xAbs ← abs? x
    if 131072 ≤ xAbs then
      return if 0 < cj then 8192 else -8192
    else
      lookedUp atanLut cj x

/-- `polar_disc_lut`. -/
def polarDiscLut (atanLut : Nat → Int) (ar aj br bj : Int) : Option Int := do
  let product ← multiplyConjugate ar aj br bj
  lutAngle atanLut product.1 product.2

/-! ## Quadrants -/

/-- The table rises from 0 and stays within a quarter turn. -/
structure AtanTable (atanLut : Nat → Int) : Prop where
  start : atanLut 0 = 0
  rising : ∀ i j, i ≤ j → j < 131072 → atanLut i ≤ atanLut j
  range : ∀ i < 131072, 0 ≤ atanLut i ∧ atanLut i ≤ 8192

/-- The angle lies in the quadrant of the product, or at its border. -/
structure InQuadrant (cr cj angle : Int) : Prop where
  above : 0 < cj → 0 ≤ angle
  below : cj < 0 → angle ≤ 0
  right : 0 ≤ cr → angle.natAbs ≤ 8192
  left : cr < 0 → 8192 ≤ angle.natAbs

theorem abs?_eq_some_iff
    {value result : Int} :
    abs? value = some result ↔
      result = value.natAbs ∧ (value < 0 → CheckedInt.Fits (-value)) := by
  unfold abs? neg?
  split
  · rw [CheckedInt.int?_eq_some_iff]
    constructor
    · rintro ⟨fits, rfl⟩
      exact ⟨by omega, fun _ => fits⟩
    · rintro ⟨rfl, fits⟩
      exact ⟨fits ‹_›, by omega⟩
  · rw [Option.some.injEq]
    omega

/-- The quotient of `fast_atan2` is at most one. -/
theorem fastAngle_eq_some_iff
    {base difference sum angle : Int}
    (small : 4096 ≤ base ∧ base ≤ 12288)
    (positive : 0 < sum)
    (atMost : -sum ≤ difference ∧ difference ≤ sum) :
    fastAngle base difference sum = some angle ↔
      CheckedInt.Fits (4096 * difference) ∧
        base - (4096 * difference).tdiv sum = angle := by
  have lower : -4096 ≤ (4096 * difference).tdiv sum :=
    Int.le_tdiv_of_mul_le positive (by omega)
  have upper : (4096 * difference).tdiv sum ≤ 4096 :=
    CheckedInt.tdiv_le_of_le_mul positive (by omega)
  have fits : CheckedInt.Fits (base - (4096 * difference).tdiv sum) := by
    unfold CheckedInt.Fits
    omega
  unfold fastAngle mul? sub?
  by_cases scaled : CheckedInt.Fits (4096 * difference)
  · rw [CheckedInt.int?_of_fits scaled, Option.bind_eq_bind, Option.bind_some,
      CheckedInt.div?_of_pos scaled positive, Option.bind_some,
      CheckedInt.int?_of_fits fits, Option.some.injEq]
    exact ⟨fun same => ⟨scaled, same⟩, fun same => same.2⟩
  · rw [CheckedInt.int?_of_not_fits scaled]
    simp [scaled]

/-- What `fast_atan2` divides by the sum of the magnitudes. -/
def octantDifference (x y : Int) : Int :=
  if 0 ≤ x then x - y.natAbs else x + y.natAbs

/-- The angle of `fast_atan2` above the axis. -/
def octantAngle (x y : Int) : Int :=
  (if 0 ≤ x then 4096 else 12288) -
    (4096 * octantDifference x y).tdiv (x.natAbs + y.natAbs)

/-- Half a turn is divided by the axes, so the angle stays on its side. -/
theorem octantAngle_bounds
    {x y : Int}
    (turned : ¬ (x = 0 ∧ y = 0)) :
    (0 ≤ x → 0 ≤ octantAngle x y ∧ octantAngle x y ≤ 8192) ∧
      (x < 0 → 8192 ≤ octantAngle x y ∧ octantAngle x y ≤ 16384) := by
  have positive : (0 : Int) < x.natAbs + y.natAbs := by omega
  have within :
      -(x.natAbs + y.natAbs : Int) ≤ octantDifference x y ∧
        octantDifference x y ≤ x.natAbs + y.natAbs := by
    unfold octantDifference
    split <;> omega
  have lower :
      -4096 ≤ (4096 * octantDifference x y).tdiv (x.natAbs + y.natAbs) :=
    Int.le_tdiv_of_mul_le positive (by omega)
  have upper :
      (4096 * octantDifference x y).tdiv (x.natAbs + y.natAbs) ≤ 4096 :=
    CheckedInt.tdiv_le_of_le_mul positive (by omega)
  unfold octantAngle
  constructor
  · intro right
    rw [if_pos right]
    omega
  · intro left
    rw [if_neg (by omega)]
    omega

/-- The branches of `fast_atan2` work on the same quotient. -/
theorem fastAtan2Above_eq_some_iff
    {x y angle : Int}
    (turned : ¬ (x = 0 ∧ y = 0)) :
    fastAtan2Above y.natAbs x = some angle ↔
      CheckedInt.Fits (octantDifference x y) ∧
        CheckedInt.Fits (x.natAbs + y.natAbs) ∧
        CheckedInt.Fits (4096 * octantDifference x y) ∧
        octantAngle x y = angle := by
  have positive : (0 : Int) < x.natAbs + y.natAbs := by omega
  have within :
      -(x.natAbs + y.natAbs : Int) ≤ octantDifference x y ∧
        octantDifference x y ≤ x.natAbs + y.natAbs := by
    unfold octantDifference
    split <;> omega
  unfold fastAtan2Above add? sub?
  by_cases right : 0 ≤ x
  · have magnitude : (x.natAbs : Int) = x := by omega
    have difference : octantDifference x y = x - y.natAbs := if_pos right
    rw [magnitude] at positive within
    rw [if_pos right]
    simp only [Option.bind_eq_bind, Option.bind_eq_some_iff,
      CheckedInt.int?_eq_some_iff, and_assoc, exists_and_left, exists_eq_left']
    rw [← difference, fastAngle_eq_some_iff (by decide) positive within]
    unfold octantAngle
    rw [if_pos right, magnitude]
  · have magnitude : (x.natAbs : Int) = -x := by omega
    have sum : -x + (y.natAbs : Int) = y.natAbs - x := by omega
    have difference : octantDifference x y = x + y.natAbs := if_neg right
    rw [magnitude, sum] at positive within
    rw [if_neg right]
    simp only [Option.bind_eq_bind, Option.bind_eq_some_iff,
      CheckedInt.int?_eq_some_iff, and_assoc, exists_and_left, exists_eq_left']
    rw [← difference, fastAngle_eq_some_iff (by decide) positive within]
    unfold octantAngle
    rw [if_neg right, magnitude, sum]

/-- What `fast_atan2` returns, and when. -/
theorem fastAtan2_eq_some_iff
    {x y angle : Int}
    (turned : ¬ (x = 0 ∧ y = 0)) :
    fastAtan2 y x = some angle ↔
      (y < 0 → CheckedInt.Fits (-y)) ∧
        CheckedInt.Fits (octantDifference x y) ∧
        CheckedInt.Fits (x.natAbs + y.natAbs) ∧
        CheckedInt.Fits (4096 * octantDifference x y) ∧
        (if y < 0 then -octantAngle x y else octantAngle x y) = angle := by
  have bounds := octantAngle_bounds turned
  have fits : CheckedInt.Fits (-octantAngle x y) := by
    unfold CheckedInt.Fits
    omega
  unfold fastAtan2
  rw [if_neg turned]
  simp only [Option.bind_eq_bind, Option.bind_eq_some_iff, abs?_eq_some_iff,
    and_assoc, exists_eq_left, exists_and_left, fastAtan2Above_eq_some_iff turned,
    exists_eq_left']
  unfold neg?
  rw [CheckedInt.int?_of_fits fits, ← apply_ite some, Option.some.injEq]

/-- `fast_atan2` has the right quadrant whenever it has a result. -/
theorem fastAtan2_inQuadrant
    {x y angle : Int}
    (turned : ¬ (x = 0 ∧ y = 0))
    (returned : fastAtan2 y x = some angle) :
    InQuadrant x y angle := by
  obtain ⟨-, -, -, -, rfl⟩ := (fastAtan2_eq_some_iff turned).mp returned
  obtain ⟨right, left⟩ := octantAngle_bounds turned
  constructor
  · intro above
    rw [if_neg (by omega)]
    omega
  · intro below
    rw [if_pos below]
    omega
  · intro nonneg
    have bounds := right nonneg
    split <;> omega
  · intro negative
    have bounds := left negative
    split <;> omega

/-! ## The table -/

/-- The quotient of `polar_disc_lut`. -/
def lutQuotient (cr cj : Int) : Int :=
  (cj * 256).tdiv cr

/-- The quotient of a small step in the first or the third quadrant is rounded to 0. -/
def RoundedToZero (cr cj : Int) : Prop :=
  256 * cj.natAbs < cr.natAbs ∧ ((0 < cr ∧ 0 < cj) ∨ (cr < 0 ∧ cj < 0))

/-- The quotient is the least `int`, or one more than the largest. -/
def Extreme (cr cj : Int) : Prop :=
  cj = -8388608 ∧ (cr = 1 ∨ cr = -1)

/-- The magnitude of the quotient is an `int`, but for the extreme. -/
theorem lutQuotient_fits_iff
    {cr cj : Int}
    (turned : cr ≠ 0)
    (shift : CheckedInt.Fits (cj * 256)) :
    CheckedInt.Fits (lutQuotient cr cj) ∧
        (lutQuotient cr cj < 0 → CheckedInt.Fits (-lutQuotient cr cj)) ↔
      ¬ Extreme cr cj := by
  have smaller := Int.natAbs_tdiv_le_natAbs (cj * 256) cr
  unfold Extreme
  constructor
  · rintro ⟨fits, negated⟩ ⟨rfl, rfl | rfl⟩
    · revert negated
      decide
    · revert fits
      decide
  · intro ordinary
    have small : (lutQuotient cr cj).natAbs ≤ 2147483647 := by
      unfold CheckedInt.Fits at shift
      by_cases least : cj = -8388608
      · -- the divisor has a magnitude of at least two
        have half : (lutQuotient cr cj).natAbs ≤ 2147483648 / 2 := by
          unfold lutQuotient
          rw [Int.natAbs_tdiv, least]
          exact Nat.div_le_div_left (by omega) (by decide)
        omega
      · change ((cj * 256).tdiv cr).natAbs ≤ _
        omega
    unfold CheckedInt.Fits
    omega

/-- Which quadrant the quotient is from. -/
theorem sign_lutQuotient
    (cr cj : Int) :
    (lutQuotient cr cj).sign =
      if 256 * cj.natAbs < cr.natAbs then 0 else cj.sign * cr.sign := by
  have magnitude : (cj * 256).natAbs = 256 * cj.natAbs := by omega
  have sign : (cj * 256).sign = cj.sign := by
    rw [Int.sign_mul, show Int.sign 256 = 1 from rfl, Int.mul_one]
  unfold lutQuotient
  rw [Int.sign_tdiv, magnitude, sign]

/-- A quotient has the sign of the quadrant unless it is rounded to 0. -/
theorem lutQuotient_cases
    {cr cj : Int}
    (right : cr ≠ 0)
    (above : cj ≠ 0) :
    (0 < lutQuotient cr cj ∧ cr.natAbs ≤ 256 * cj.natAbs ∧ (0 < cj ↔ 0 < cr)) ∨
      (lutQuotient cr cj = 0 ∧ 256 * cj.natAbs < cr.natAbs) ∨
      (lutQuotient cr cj < 0 ∧ cr.natAbs ≤ 256 * cj.natAbs ∧ (0 < cj ↔ cr < 0)) := by
  have sign := sign_lutQuotient cr cj
  by_cases small : 256 * cj.natAbs < cr.natAbs
  · rw [if_pos small] at sign
    exact .inr (.inl ⟨Int.sign_eq_zero_iff_zero.mp sign, small⟩)
  · rw [if_neg small] at sign
    rcases lt_or_gt_of_ne right with left | right
    · rw [Int.sign_eq_neg_one_of_neg left] at sign
      rcases lt_or_gt_of_ne above with below | above
      · rw [Int.sign_eq_neg_one_of_neg below] at sign
        have positive := Int.pos_of_sign_eq_one sign
        exact .inl ⟨positive, by omega, by omega⟩
      · rw [Int.sign_eq_one_of_pos above] at sign
        have negative := Int.neg_of_sign_eq_neg_one sign
        exact .inr (.inr ⟨negative, by omega, by omega⟩)
    · rw [Int.sign_eq_one_of_pos right] at sign
      rcases lt_or_gt_of_ne above with below | above
      · rw [Int.sign_eq_neg_one_of_neg below] at sign
        have negative := Int.neg_of_sign_eq_neg_one sign
        exact .inr (.inr ⟨negative, by omega, by omega⟩)
      · rw [Int.sign_eq_one_of_pos above] at sign
        have positive := Int.pos_of_sign_eq_one sign
        exact .inl ⟨positive, by omega, by omega⟩

/-- What is returned for an index of the table. -/
theorem lookedUp_eq_some
    {atanLut : Nat → Int}
    (table : AtanTable atanLut)
    (cj : Int)
    {x : Int}
    (inTable : x.natAbs < 131072) :
    lookedUp atanLut cj x =
      some
        (if 0 < x then
          if 0 < cj then atanLut x.natAbs else atanLut x.natAbs - 16384
        else
          if 0 < cj then 16384 - atanLut x.natAbs else -atanLut x.natAbs) := by
  have range := table.range x.natAbs inTable
  unfold lookedUp sub? neg?
  by_cases positive : 0 < x
  · have fits : CheckedInt.Fits (atanLut x.natAbs - 16384) := by
      unfold CheckedInt.Fits
      omega
    rw [if_pos positive, if_pos positive, show x.toNat = x.natAbs from by omega,
      CheckedInt.int?_of_fits fits, ← apply_ite some]
  · have upper : CheckedInt.Fits (16384 - atanLut x.natAbs) := by
      unfold CheckedInt.Fits
      omega
    have lower : CheckedInt.Fits (-atanLut x.natAbs) := by
      unfold CheckedInt.Fits
      omega
    rw [if_neg positive, if_neg positive, show (-x).toNat = x.natAbs from by omega,
      CheckedInt.int?_of_fits upper, CheckedInt.int?_of_fits lower, ← apply_ite some]

/-- An index of the table gives an angle of the right quadrant or of the opposite one. -/
theorem lookedUp_inQuadrant
    {atanLut : Nat → Int}
    (table : AtanTable atanLut)
    {cr cj : Int}
    (right : cr ≠ 0)
    (above : cj ≠ 0)
    (inTable : (lutQuotient cr cj).natAbs < 131072) :
    ∃ angle,
      lookedUp atanLut cj (lutQuotient cr cj) = some angle ∧
        (InQuadrant cr cj angle ↔ ¬ RoundedToZero cr cj) := by
  have range := table.range _ inTable
  refine ⟨_, lookedUp_eq_some table cj inTable, ?_⟩
  unfold RoundedToZero
  rcases lutQuotient_cases right above with
    ⟨positive, step, same⟩ | ⟨zero, small⟩ | ⟨negative, step, opposite⟩
  · rw [if_pos positive]
    refine ⟨fun _ => by omega, fun _ => ⟨?_, ?_, ?_, ?_⟩⟩ <;> split <;> omega
  · rw [zero, if_neg (by decide), Int.natAbs_zero, table.start]
    constructor
    · rintro ⟨_, _, inRight, inLeft⟩ ⟨_, sameSigns⟩
      revert inRight inLeft
      split <;> omega
    · intro opposite
      refine ⟨?_, ?_, ?_, ?_⟩ <;> split <;> omega
  · rw [if_neg (by omega)]
    refine ⟨fun _ => by omega, fun _ => ⟨?_, ?_, ?_, ?_⟩⟩ <;> split <;> omega

/-- The product off the axes: the shift, the quotient, and the table for small ones. -/
theorem lutAngle_off_axes
    (atanLut : Nat → Int)
    {cr cj : Int}
    (right : cr ≠ 0)
    (above : cj ≠ 0)
    (shift : CheckedInt.Fits (cj * 256)) :
    lutAngle atanLut cr cj =
      (CheckedInt.int? (lutQuotient cr cj)).bind fun x =>
        (abs? x).bind fun xAbs =>
          if 131072 ≤ xAbs then
            some (if 0 < cj then 8192 else -8192)
          else
            lookedUp atanLut cj x := by
  unfold lutAngle mul? div? lutQuotient
  simp only [right, above, false_and, if_false, CheckedInt.int?_of_fits shift,
    Option.bind_eq_bind, Option.bind_some, Option.pure_def]

/-- The special cases. -/
theorem lutAngle_axis
    (atanLut : Nat → Int)
    {cr cj : Int}
    (turned : ¬ (cr = 0 ∧ cj = 0))
    (axis : cr = 0 ∨ cj = 0) :
    ∃ angle,
      lutAngle atanLut cr cj = some angle ∧ InQuadrant cr cj angle := by
  unfold lutAngle
  rw [if_neg turned]
  rcases axis with rfl | rfl
  · rcases lt_trichotomy cj 0 with below | zero | above
    · refine ⟨-8192, by simp [below, below.not_gt], ?_⟩
      constructor <;> omega
    · exact absurd ⟨rfl, zero⟩ turned
    · refine ⟨8192, by simp [above], ?_⟩
      constructor <;> omega
  · rcases lt_trichotomy cr 0 with left | zero | right
    · refine ⟨16384, by simp [left, left.not_gt], ?_⟩
      constructor <;> omega
    · exact absurd ⟨zero, rfl⟩ turned
    · refine ⟨0, by simp [right], ?_⟩
      constructor <;> omega

/-- The magnitude of an extreme quotient is no `int`. -/
theorem lutAngle_eq_none
    (atanLut : Nat → Int)
    {cr cj : Int}
    (shift : CheckedInt.Fits (cj * 256))
    (extreme : Extreme cr cj) :
    lutAngle atanLut cr cj = none := by
  have unfit := not_not.mpr extreme
  have right : cr ≠ 0 := by
    unfold Extreme at extreme
    omega
  have above : cj ≠ 0 := by
    unfold Extreme at extreme
    omega
  rw [← lutQuotient_fits_iff right shift] at unfit
  rw [lutAngle_off_axes atanLut right above shift]
  by_cases fits : CheckedInt.Fits (lutQuotient cr cj)
  · have noMagnitude : abs? (lutQuotient cr cj) = none := by
      rw [Option.eq_none_iff_forall_ne_some]
      intro magnitude isMagnitude
      exact unfit ⟨fits, (abs?_eq_some_iff.mp isMagnitude).2⟩
    rw [CheckedInt.int?_of_fits fits, Option.bind_some, noMagnitude]
    rfl
  · rw [CheckedInt.int?_of_not_fits fits]
    rfl

/-- The angle of the other products. -/
theorem lutAngle_eq_some
    {atanLut : Nat → Int}
    (table : AtanTable atanLut)
    {cr cj : Int}
    (turned : ¬ (cr = 0 ∧ cj = 0))
    (shift : CheckedInt.Fits (cj * 256))
    (ordinary : ¬ Extreme cr cj) :
    ∃ angle,
      lutAngle atanLut cr cj = some angle ∧
        (InQuadrant cr cj angle ↔ ¬ RoundedToZero cr cj) := by
  by_cases axis : cr = 0 ∨ cj = 0
  · have notRounded : ¬ RoundedToZero cr cj := by
      unfold RoundedToZero
      omega
    obtain ⟨angle, returned, inQuadrant⟩ := lutAngle_axis atanLut turned axis
    exact ⟨angle, returned, fun _ => notRounded, fun _ => inQuadrant⟩
  · have right : cr ≠ 0 := fun zero => axis (.inl zero)
    have above : cj ≠ 0 := fun zero => axis (.inr zero)
    obtain ⟨fits, negated⟩ := (lutQuotient_fits_iff right shift).mpr ordinary
    have magnitude :
        abs? (lutQuotient cr cj) = some ((lutQuotient cr cj).natAbs : Int) :=
      abs?_eq_some_iff.mpr ⟨rfl, negated⟩
    rw [lutAngle_off_axes atanLut right above shift, CheckedInt.int?_of_fits fits,
      Option.bind_some, magnitude, Option.bind_some]
    by_cases steep : 131072 ≤ (lutQuotient cr cj).natAbs
    · rw [if_pos (by omega)]
      refine ⟨_, rfl, fun _ => ?_, fun _ => ?_⟩
      · rcases lutQuotient_cases right above with
          ⟨-, step, -⟩ | ⟨zero, -⟩ | ⟨-, step, -⟩
        · unfold RoundedToZero
          omega
        · omega
        · unfold RoundedToZero
          omega
      · constructor <;> split <;> omega
    · rw [if_neg (by omega)]
      exact lookedUp_inQuadrant table right above (by omega)

/-- The product is that with the conjugate. -/
theorem multiplyConjugate_eq_some_iff
    {ar aj br bj cr cj : Int} :
    multiplyConjugate ar aj br bj = some (cr, cj) ↔
      CheckedInt.Fits (-bj) ∧
        CheckedInt.Fits (ar * br) ∧
        CheckedInt.Fits (aj * -bj) ∧
        CheckedInt.Fits (ar * br - aj * -bj) ∧
        CheckedInt.Fits (aj * br) ∧
        CheckedInt.Fits (ar * -bj) ∧
        CheckedInt.Fits (aj * br + ar * -bj) ∧
        ar * br + aj * bj = cr ∧ aj * br - ar * bj = cj := by
  have real : ar * br - aj * -bj = ar * br + aj * bj := by ring
  have imaginary : aj * br + ar * -bj = aj * br - ar * bj := by ring
  unfold multiplyConjugate multiply neg? mul? sub? add?
  simp only [Option.bind_eq_bind, Option.bind_eq_some_iff,
    CheckedInt.int?_eq_some_iff, Option.pure_def, Option.some.injEq, Prod.mk.injEq,
    and_assoc, exists_and_left, exists_eq_left', real, imaginary]

/--
For all samples whose products do not overflow, neither shifted: `polar_disc_lut` has
the quadrant that `polar_disc_fast` has, if and only if the quotient is not rounded to
0 in the first or the third quadrant, and its magnitude is an `int`.
-/
theorem polarDiscLut_inQuadrant_iff
    {atanLut : Nat → Int}
    (table : AtanTable atanLut)
    {ar aj br bj cr cj : Int}
    (product : multiplyConjugate ar aj br bj = some (cr, cj))
    (shift : CheckedInt.Fits (cj * 256))
    (turned : ¬ (cr = 0 ∧ cj = 0)) :
    (∃ angle,
      polarDiscLut atanLut ar aj br bj = some angle ∧
        InQuadrant cr cj angle ∧
        ∀ fast, polarDiscFast ar aj br bj = some fast → InQuadrant cr cj fast) ↔
      ¬ RoundedToZero cr cj ∧ ¬ Extreme cr cj := by
  have lut : polarDiscLut atanLut ar aj br bj = lutAngle atanLut cr cj := by
    unfold polarDiscLut
    rw [product]
    rfl
  have fast : polarDiscFast ar aj br bj = fastAtan2 cj cr := by
    unfold polarDiscFast
    rw [product]
    rfl
  rw [lut, fast]
  constructor
  · rintro ⟨angle, returned, inQuadrant, -⟩
    have ordinary : ¬ Extreme cr cj := by
      intro extreme
      rw [lutAngle_eq_none atanLut shift extreme] at returned
      cases returned
    obtain ⟨same, isAngle, quadrant⟩ := lutAngle_eq_some table turned shift ordinary
    rw [returned, Option.some.injEq] at isAngle
    rw [isAngle] at inQuadrant
    exact ⟨quadrant.mp inQuadrant, ordinary⟩
  · rintro ⟨notRounded, ordinary⟩
    obtain ⟨angle, returned, quadrant⟩ := lutAngle_eq_some table turned shift ordinary
    exact
      ⟨angle, returned, quadrant.mpr notRounded,
        fun _ isFast => fastAtan2_inQuadrant turned isFast⟩

/-- A table that rises as the arc tangent does: 4096 at the index 256. -/
def rampTable (index : Nat) : Int :=
  min (16 * index) 8192

theorem rampTable_table :
    AtanTable rampTable := by
  unfold rampTable
  constructor
  · decide
  · intro i j atMost _
    omega
  · intro i _
    omega

/-- An eighth of a turn. -/
theorem polarDiscLut_inQuadrant_eighth :
    (∃ angle,
      polarDiscLut rampTable 1 1 1 0 = some angle ∧
        InQuadrant 1 1 angle ∧
        ∀ fast, polarDiscFast 1 1 1 0 = some fast → InQuadrant 1 1 fast) ↔
      ¬ RoundedToZero 1 1 ∧ ¬ Extreme 1 1 :=
  polarDiscLut_inQuadrant_iff rampTable_table (by decide) (by decide) (by decide)

/-- A step of a thousandth is taken for half a turn. -/
theorem polarDiscLut_half_turn :
    multiplyConjugate 1000 1 1 0 = some (1000, 1) ∧
      polarDiscLut rampTable 1000 1 1 0 = some 16384 ∧
      ¬ InQuadrant 1000 1 16384 := by
  refine ⟨by decide, by decide, ?_⟩
  intro inQuadrant
  have small := inQuadrant.right (by decide)
  revert small
  decide

end LibRtlSdr.RtlFm
