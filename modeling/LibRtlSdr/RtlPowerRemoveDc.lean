import LibRtlSdr.CheckedInt
import LibRtlSdr.RtlPowerFifthOrder
import Mathlib.Algebra.BigOperators.Intervals
import Mathlib.Algebra.Order.BigOperators.Group.Finset
import Mathlib.Tactic.Linarith

namespace LibRtlSdr.RtlPower

/-!
# The mean of a channel: `remove_dc` of `rtl_power`

The samples of one channel are every second value of the buffer, and the sum over them
is divided by the number of all values.  What is taken from each sample is half of its
mean, so a mean is removed only when there is none.
-/

open Finset (range)

/-! ## Source -/

/-- The sum of the samples at 0, 2, ... below `length`. -/
def dcSum (data : Nat → Int16) (base length : Nat) : Int :=
  (List.range ((length + 1) / 2)).foldl
    (fun sum t => sum + (data (base + 2 * t)).toInt) 0

/-- `data[i] -= ave` at 0, 2, ... below `length`. -/
def subtractAve (data : Nat → Int16) (base length : Nat) (ave : Int16) : Nat → Int16 :=
  (List.range ((length + 1) / 2)).foldl
    (fun data t => Function.update data (base + 2 * t) (data (base + 2 * t) - ave)) data

/-- `remove_dc` on the data from `base` on; a division by 0 has no result. -/
def removeDc (data : Nat → Int16) (base length : Nat) : Option (Nat → Int16) :=
  if length = 0 then
    none
  else
    let ave := Int16.ofInt ((dcSum data base length).tdiv length)
    if ave = 0 then
      some data
    else
      some (subtractAve data base length ave)

/-! ## The two loops -/

/-- The sum of the first samples of a channel. -/
def total (x : Nat → Int16) (count : Nat) : Int :=
  ∑ t ∈ range count, (x t).toInt

theorem dcSum_eq_total
    (data : Nat → Int16)
    (base length : Nat) :
    dcSum data base length = total (samples data base) ((length + 1) / 2) := by
  unfold dcSum total
  generalize (length + 1) / 2 = count
  induction count with
  | zero =>
      rfl
  | succ count inductionHypothesis =>
      rw [List.range_succ, List.foldl_append, inductionHypothesis, Finset.sum_range_succ]
      rfl

/-- The samples are lowered, and nothing else changes. -/
theorem subtractAve_spec
    (data : Nat → Int16)
    (base length : Nat)
    (ave : Int16) :
    (∀ t < (length + 1) / 2,
        samples (subtractAve data base length ave) base t = samples data base t - ave) ∧
      ∀ place, (∀ t < (length + 1) / 2, place ≠ base + 2 * t) →
        subtractAve data base length ave place = data place := by
  unfold subtractAve samples
  generalize (length + 1) / 2 = count
  induction count with
  | zero =>
      exact ⟨nofun, fun _ _ => rfl⟩
  | succ count inductionHypothesis =>
      obtain ⟨lowered, kept⟩ := inductionHypothesis
      rw [List.range_succ, List.foldl_append, List.foldl_cons, List.foldl_nil]
      constructor
      · intro t below
        rcases Nat.lt_succ_iff_lt_or_eq.mp below with earlier | rfl
        · rw [Function.update_of_ne (by omega)]
          exact lowered t earlier
        · rw [Function.update_self, kept _ (fun earlier below => by omega)]
      · intro place elsewhere
        rw [Function.update_of_ne (elsewhere count (by omega))]
        exact kept place (fun t below => elsewhere t (by omega))

/-! ## The quotient -/

theorem total_bounds
    (x : Nat → Int16)
    (count : Nat) :
    -32768 * (count : Int) ≤ total x count ∧ total x count ≤ 32767 * count := by
  unfold total
  have least : ∀ t ∈ range count, -32768 ≤ (x t).toInt :=
    fun t _ => (x t).le_toInt
  have most : ∀ t ∈ range count, (x t).toInt ≤ 32767 :=
    fun t _ => Int.le_of_lt_add_one (x t).toInt_lt
  have below := Finset.card_nsmul_le_sum (range count) _ _ least
  have above := Finset.sum_le_card_nsmul (range count) _ _ most
  rw [Finset.card_range, nsmul_eq_mul] at below above
  constructor <;> linarith

/-- `ave`. -/
def average (x : Nat → Int16) (length : Nat) : Int :=
  (total x ((length + 1) / 2)).tdiv length

/-- The quotient is an `int16_t`, so its conversion keeps it. -/
theorem average_bounds
    {x : Nat → Int16}
    {length : Nat}
    (positive : 0 < length) :
    -32768 ≤ average x length ∧ average x length ≤ 32767 := by
  obtain ⟨least, most⟩ := total_bounds x ((length + 1) / 2)
  have count : ((length + 1) / 2 : Nat) ≤ length := by omega
  constructor
  · apply Int.le_tdiv_of_mul_le (by omega)
    push_cast at *
    omega
  · apply CheckedInt.tdiv_le_of_le_mul (by omega)
    push_cast at *
    omega

/-- The quotient of samples that have a bit to spare. -/
theorem average_bounds_of_headroom
    {x : Nat → Int16}
    {length : Nat}
    (positive : 0 < length)
    (headroom :
      ∀ t < (length + 1) / 2, -16384 ≤ (x t).toInt ∧ (x t).toInt ≤ 16383) :
    -16384 ≤ average x length ∧ average x length ≤ 16383 := by
  have least := fun t (inside : t ∈ range ((length + 1) / 2)) =>
    (headroom t (Finset.mem_range.mp inside)).1
  have most := fun t (inside : t ∈ range ((length + 1) / 2)) =>
    (headroom t (Finset.mem_range.mp inside)).2
  have below := Finset.card_nsmul_le_sum _ _ _ least
  have above := Finset.sum_le_card_nsmul _ _ _ most
  rw [Finset.card_range, nsmul_eq_mul] at below above
  have count : ((length + 1) / 2 : Nat) ≤ length := by omega
  unfold average total
  constructor
  · apply Int.le_tdiv_of_mul_le (by omega)
    push_cast at *
    omega
  · apply CheckedInt.tdiv_le_of_le_mul (by omega)
    push_cast at *
    omega

/-- The sum is the quotient times the length, and a remainder of its sign. -/
theorem total_eq
    (x : Nat → Int16)
    {length : Nat}
    (positive : 0 < length) :
    ∃ remainder : Int,
      total x ((length + 1) / 2) = length * average x length + remainder ∧
        (0 ≤ total x ((length + 1) / 2) →
          0 ≤ average x length ∧ 0 ≤ remainder ∧ remainder < length) ∧
        (total x ((length + 1) / 2) ≤ 0 →
          average x length ≤ 0 ∧ -length < remainder ∧ remainder ≤ 0) := by
  unfold average
  generalize total x ((length + 1) / 2) = sum
  refine ⟨sum.tmod length, (Int.mul_tdiv_add_tmod sum length).symm, ?_, ?_⟩
  · intro nonneg
    exact ⟨Int.tdiv_nonneg nonneg (by omega), Int.tmod_nonneg _ nonneg,
      Int.tmod_lt_of_pos _ (by omega)⟩
  · intro nonpos
    have quotient := Int.tdiv_nonneg (Int.neg_nonneg_of_nonpos nonpos) (Int.natCast_nonneg length)
    have nonneg := Int.tmod_nonneg (length : Int) (Int.neg_nonneg_of_nonpos nonpos)
    have small : (-sum).tmod length < length := Int.tmod_lt_of_pos _ (by omega)
    rw [Int.neg_tdiv] at quotient
    rw [Int.neg_tmod] at nonneg small
    omega

/-! ## What is left of the sum -/

/-- A difference that leaves the `int16_t` comes back at the other end. -/
theorem toInt_sub_cases
    (sample ave : Int16) :
    (-32768 ≤ sample.toInt - ave.toInt ∧ sample.toInt - ave.toInt ≤ 32767) ∧
        (sample - ave).toInt = sample.toInt - ave.toInt ∨
      sample.toInt - ave.toInt < -32768 ∧
        (sample - ave).toInt = sample.toInt - ave.toInt + 65536 ∨
      32767 < sample.toInt - ave.toInt ∧
        (sample - ave).toInt = sample.toInt - ave.toInt - 65536 := by
  have first := sample.le_toInt
  have first' := sample.toInt_lt
  have second := ave.le_toInt
  have second' := ave.toInt_lt
  rw [Int16.toInt_sub]
  simp only [Int.bmod]
  omega

/-- No sample leaves the `int16_t` when `ave` is taken from it. -/
def NoWrap (x : Nat → Int16) (count : Nat) (ave : Int) : Prop :=
  ∀ t < count, -32768 ≤ (x t).toInt - ave ∧ (x t).toInt - ave ≤ 32767

theorem residual_of_noWrap
    {x : Nat → Int16}
    {count : Nat}
    {ave : Int16}
    (noWrap : NoWrap x count ave.toInt) :
    total (fun t => x t - ave) count = total x count - count * ave.toInt := by
  have each :
      ∀ t ∈ range count, (x t - ave).toInt = (x t).toInt - ave.toInt := by
    intro t inside
    have fits := noWrap t (Finset.mem_range.mp inside)
    rcases toInt_sub_cases (x t) ave with same | wrapped | wrapped
    · exact same.2
    · omega
    · omega
  unfold total
  rw [Finset.sum_congr rfl each, Finset.sum_sub_distrib, Finset.sum_const,
    Finset.card_range, nsmul_eq_mul]

/-- What wraps moves the sum further in its direction. -/
theorem residual_of_wrap
    {x : Nat → Int16}
    {count : Nat}
    {ave : Int16}
    (wraps : ¬ NoWrap x count ave.toInt) :
    (0 < ave.toInt →
        total x count - count * ave.toInt + 65536 ≤ total (fun t => x t - ave) count) ∧
      (ave.toInt < 0 →
        total (fun t => x t - ave) count ≤
          total x count - count * ave.toInt - 65536) := by
  have excess :
      total (fun t => x t - ave) count - (total x count - count * ave.toInt) =
        ∑ t ∈ range count, ((x t - ave).toInt - ((x t).toInt - ave.toInt)) := by
    unfold total
    rw [Finset.sum_sub_distrib, Finset.sum_sub_distrib, Finset.sum_const,
      Finset.card_range, nsmul_eq_mul]
  simp only [NoWrap, not_forall] at wraps
  obtain ⟨place, inside, leaves⟩ := wraps
  have bounds := fun t => And.intro (x t).le_toInt (x t).toInt_lt
  have atPlace := bounds place
  constructor
  · intro positive
    have one :=
      Finset.single_le_sum
        (f := fun t => (x t - ave).toInt - ((x t).toInt - ave.toInt))
        (s := range count)
        (fun t _ => by
          have atT := bounds t
          rcases toInt_sub_cases (x t) ave with same | wrapped | wrapped <;> omega)
        (Finset.mem_range.mpr inside)
    rcases toInt_sub_cases (x place) ave with same | wrapped | wrapped <;> omega
  · intro negative
    have one :=
      Finset.single_le_sum
        (f := fun t => (x t).toInt - ave.toInt - (x t - ave).toInt)
        (s := range count)
        (fun t _ => by
          have atT := bounds t
          rcases toInt_sub_cases (x t) ave with same | wrapped | wrapped <;> omega)
        (Finset.mem_range.mpr inside)
    have mirrored :
        ∑ t ∈ range count, ((x t).toInt - ave.toInt - (x t - ave).toInt) =
          -∑ t ∈ range count, ((x t - ave).toInt - ((x t).toInt - ave.toInt)) := by
      rw [← Finset.sum_neg_distrib]
      exact Finset.sum_congr rfl (fun t _ => by ring)
    rcases toInt_sub_cases (x place) ave with same | wrapped | wrapped <;> omega

/--
The sums that a call makes smaller than the number of samples: those that are smaller
already, and for an odd length also one sample, or a sum of the length.
-/
def Balanced (x : Nat → Int16) (length : Nat) : Prop :=
  let count := (length + 1) / 2
  |total x count| < count ∨
    length % 2 = 1 ∧
      (count = 1 ∨
        total x count = length ∧ (∀ t < count, x t ≠ -32768) ∨
        total x count = -length ∧ ∀ t < count, x t ≠ 32767)

/-- A positive quotient, and half of the value that is divided. -/
theorem quotient_facts_of_pos
    {sum ave remainder : Int}
    {length count : Nat}
    (some : 0 < count)
    (halves : length = 2 * count ∨ length + 1 = 2 * count)
    (isSum : sum = length * ave + remainder)
    (bounds : 0 ≤ remainder ∧ remainder < length)
    (positive : 0 < ave) :
    count ≤ sum ∧
      count ≤ sum - count * ave + 1 ∧
      (sum - count * ave < count ↔ length % 2 = 1 ∧ (count = 1 ∨ sum = length)) ∧
      (sum = length → ave = 1) := by
  obtain ⟨further, rfl⟩ : ∃ further, ave = further + 1 := ⟨ave - 1, by omega⟩
  obtain ⟨others, rfl⟩ : ∃ others, count = others + 1 := ⟨count - 1, by omega⟩
  have nonneg : 0 ≤ (others : Int) * further :=
    Int.mul_nonneg (Int.natCast_nonneg others) (by omega)
  have grows : 1 ≤ further → (others : Int) ≤ others * further := by
    intro atLeast
    have product := Int.mul_le_mul_of_nonneg_left atLeast (Int.natCast_nonneg others)
    rwa [Int.mul_one] at product
  have isProduct :
      ((others + 1 : Nat) : Int) * (further + 1) =
        others * further + others + further + 1 := by
    push_cast
    ring
  rw [isProduct]
  rcases halves with even | odd
  · have isWhole :
        (length : Int) * (further + 1) = 2 * (others * further + others + further + 1) := by
      rw [even]
      push_cast
      ring
    rw [isWhole] at isSum
    generalize (others : Int) * further = product at *
    omega
  · have isWhole :
        (length : Int) * (further + 1) = 2 * (others * further) + 2 * others + further + 1 := by
      have isLength : (length : Int) = 2 * others + 1 := by omega
      rw [isLength]
      ring
    rw [isWhole] at isSum
    have single : others = 0 → (others : Int) * further = 0 := by
      rintro rfl
      exact Int.zero_mul _
    generalize (others : Int) * further = product at *
    omega

/-- A quotient that is not 0, and half of the value that is divided. -/
theorem quotient_facts
    {sum ave remainder : Int}
    {length count : Nat}
    (some : 0 < count)
    (halves : length = 2 * count ∨ length + 1 = 2 * count)
    (isSum : sum = length * ave + remainder)
    (nonneg : 0 ≤ sum → 0 ≤ ave ∧ 0 ≤ remainder ∧ remainder < length)
    (nonpos : sum ≤ 0 → ave ≤ 0 ∧ -length < remainder ∧ remainder ≤ 0)
    (notZero : ave ≠ 0) :
    ¬ |sum| < count ∧
      (|sum - count * ave| < count ↔
        length % 2 = 1 ∧ (count = 1 ∨ sum = length ∨ sum = -length)) ∧
      (0 < ave → count ≤ sum - count * ave + 65536) ∧
      (ave < 0 → sum - count * ave - 65536 ≤ -count) ∧
      (sum = length → ave = 1) ∧ (sum = -length → ave = -1) := by
  rcases Int.lt_or_lt_of_ne notZero with negative | positive
  · have sumNonpos : sum ≤ 0 := by
      by_contra sumPositive
      exact absurd (nonneg (by omega)).1 (by omega)
    obtain ⟨_, lower, upper⟩ := nonpos sumNonpos
    have isMirrored : -sum = length * -ave + -remainder := by
      rw [isSum, Int.mul_neg, Int.neg_add]
    obtain ⟨large, nearly, small, isOne⟩ :=
      quotient_facts_of_pos some halves isMirrored (by omega) (show 0 < -ave by omega)
    have residual : -sum - count * -ave = -(sum - count * ave) := by
      rw [Int.mul_neg]
      omega
    rw [residual] at nearly small
    rw [abs_of_nonpos sumNonpos, abs_of_nonpos (by omega), small]
    omega
  · have sumNonneg : 0 ≤ sum := by
      by_contra sumNegative
      exact absurd (nonpos (by omega)).1 (by omega)
    obtain ⟨_, bounds⟩ := nonneg sumNonneg
    obtain ⟨large, nearly, small, isOne⟩ :=
      quotient_facts_of_pos some halves isSum bounds positive
    rw [abs_of_nonneg sumNonneg, abs_of_nonneg (by omega), small]
    omega

/-- The residual of a quotient that is not 0. -/
theorem residual_iff
    {x : Nat → Int16}
    {length : Nat}
    (positive : 0 < length)
    {ave : Int16}
    (isAverage : ave.toInt = average x length)
    (notZero : average x length ≠ 0) :
    |total (fun t => x t - ave) ((length + 1) / 2)| < ((length + 1) / 2 : Nat) ↔
      Balanced x length := by
  have halves :
      length = 2 * ((length + 1) / 2) ∨ length + 1 = 2 * ((length + 1) / 2) := by
    omega
  obtain ⟨remainder, isSum, nonneg, nonpos⟩ := total_eq x positive
  obtain ⟨large, small, wrapsUp, wrapsDown, isOne, isMinusOne⟩ :=
    quotient_facts (by omega) halves isSum nonneg nonpos notZero
  have least : ∀ t, x t = -32768 ↔ (x t).toInt = -32768 :=
    fun t => Int16.toInt_inj.symm
  have most : ∀ t, x t = 32767 ↔ (x t).toInt = 32767 :=
    fun t => Int16.toInt_inj.symm
  have bounds := fun t => And.intro (x t).le_toInt (x t).toInt_lt
  unfold Balanced
  dsimp only
  simp only [large, false_or]
  by_cases noWrap : NoWrap x ((length + 1) / 2) ave.toInt
  · rw [residual_of_noWrap noWrap, isAverage, small]
    rw [isAverage] at noWrap
    apply and_congr_right
    intro _
    apply or_congr_right
    apply or_congr
    · refine ⟨fun isLength => ⟨isLength, ?_⟩, And.left⟩
      intro t inside isLeast
      have fits := noWrap t inside
      rw [isOne isLength, (least t).mp isLeast] at fits
      exact absurd fits.1 (by decide)
    · refine ⟨fun isLength => ⟨isLength, ?_⟩, And.left⟩
      intro t inside isMost
      have fits := noWrap t inside
      rw [isMinusOne isLength, (most t).mp isMost] at fits
      exact absurd fits.2 (by decide)
  · obtain ⟨up, down⟩ := residual_of_wrap noWrap
    rw [isAverage] at noWrap up down
    constructor
    · intro isSmall
      rw [abs_lt] at isSmall
      exfalso
      rcases Int.lt_or_lt_of_ne notZero with negative | positive
      · have beyond := (down negative).trans (wrapsDown negative)
        exact absurd isSmall.1 (Int.not_lt.mpr beyond)
      · have beyond := (wrapsUp positive).trans (up positive)
        exact absurd isSmall.2 (Int.not_lt.mpr beyond)
    · rintro ⟨odd, isOneSample | ⟨isLength, noLeast⟩ | ⟨isLength, noMost⟩⟩
      · refine absurd ?_ noWrap
        intro t inside
        have isFirst : t = 0 := by omega
        have lengthOne : length = 1 := by omega
        have alone : average x length = (x 0).toInt := by
          rw [lengthOne]
          simp [average, total]
        rw [isFirst, alone]
        omega
      · refine absurd ?_ noWrap
        intro t inside
        have notLeast := mt (least t).mpr (noLeast t inside)
        have atT := bounds t
        rw [isOne isLength]
        omega
      · refine absurd ?_ noWrap
        intro t inside
        have notMost := mt (most t).mpr (noMost t inside)
        have atT := bounds t
        rw [isMinusOne isLength]
        omega

/-- A quotient of 0 leaves the sum as it is. -/
theorem balanced_iff_of_average_eq_zero
    {x : Nat → Int16}
    {length : Nat}
    (positive : 0 < length)
    (isZero : average x length = 0) :
    Balanced x length ↔
      |total x ((length + 1) / 2)| < ((length + 1) / 2 : Nat) := by
  obtain ⟨remainder, isSum, nonneg, nonpos⟩ := total_eq x positive
  rw [isZero, Int.mul_zero, Int.zero_add] at isSum
  rw [isZero] at nonneg nonpos
  unfold Balanced
  dsimp only
  rw [abs_lt]
  apply or_iff_left_of_imp
  rintro ⟨odd, isOneSample | ⟨isLength, _⟩ | ⟨isLength, _⟩⟩ <;> omega

/-! ## The two calls of `scanner` -/

/-- What a call is for. -/
structure RemovesDc
    (data out : Nat → Int16)
    (base length : Nat) : Prop where
  residual :
    |total (samples out base) ((length + 1) / 2)| < ((length + 1) / 2 : Nat)
  shifted :
    ∃ ave : Int16,
      (∀ t < (length + 1) / 2, samples out base t = samples data base t - ave) ∧
        ((∀ t < (length + 1) / 2,
            -16384 ≤ (samples data base t).toInt ∧ (samples data base t).toInt ≤ 16383) →
          ∀ t < (length + 1) / 2,
            (samples out base t).toInt = (samples data base t).toInt - ave.toInt)
  kept :
    ∀ place, (∀ t < (length + 1) / 2, place ≠ base + 2 * t) → out place = data place

/-- The samples that a call leaves, also when it returns early. -/
theorem removeDc_spec
    (data : Nat → Int16)
    (base : Nat)
    {length : Nat}
    (positive : 0 < length) :
    ∃ out,
      removeDc data base length = some out ∧
        (∀ t < (length + 1) / 2,
          samples out base t =
            samples data base t - Int16.ofInt (average (samples data base) length)) ∧
        ∀ place, (∀ t < (length + 1) / 2, place ≠ base + 2 * t) →
          out place = data place := by
  have isAverage :
      (dcSum data base length).tdiv length = average (samples data base) length := by
    rw [dcSum_eq_total, average]
  unfold removeDc
  rw [if_neg (by omega), isAverage]
  dsimp only
  split
  · rename_i isZero
    refine ⟨data, rfl, ?_, fun _ _ => rfl⟩
    intro t _
    rw [isZero, Int16.sub_zero]
  · obtain ⟨lowered, kept⟩ :=
      subtractAve_spec data base length
        (Int16.ofInt (average (samples data base) length))
    exact ⟨_, rfl, lowered, kept⟩

/-- A call does what it is for exactly when the sum is one of those. -/
theorem removesDc_iff
    {data out : Nat → Int16}
    {base length : Nat}
    (positive : 0 < length)
    (called : removeDc data base length = some out) :
    RemovesDc data out base length ↔ Balanced (samples data base) length := by
  obtain ⟨out', called', lowered, kept⟩ := removeDc_spec data base positive
  rw [called, Option.some.injEq] at called'
  subst called'
  have bounds := @average_bounds (samples data base) length positive
  have isAverage :
      (Int16.ofInt (average (samples data base) length)).toInt =
        average (samples data base) length :=
    Int16.toInt_ofInt_of_le bounds.1 (by omega)
  have same :
      total (samples out base) ((length + 1) / 2) =
        total
          (fun t =>
            samples data base t - Int16.ofInt (average (samples data base) length))
          ((length + 1) / 2) := by
    apply Finset.sum_congr rfl
    intro t inside
    rw [lowered t (Finset.mem_range.mp inside)]
  have small :
      |total (samples out base) ((length + 1) / 2)| < ((length + 1) / 2 : Nat) ↔
        Balanced (samples data base) length := by
    rw [same]
    by_cases isZero : average (samples data base) length = 0
    · rw [balanced_iff_of_average_eq_zero positive isZero, isZero]
      simp [total, Int16.sub_zero]
    · exact residual_iff positive isAverage isZero
  refine ⟨fun removes => small.mp removes.residual, fun balanced => ?_⟩
  refine ⟨small.mpr balanced, ⟨_, lowered, ?_⟩, kept⟩
  intro headroom t inside
  obtain ⟨least, most⟩ := average_bounds_of_headroom positive headroom
  have atT := headroom t inside
  rw [lowered t inside]
  rcases toInt_sub_cases (samples data base t)
      (Int16.ofInt (average (samples data base) length)) with
    fits | wrapped | wrapped
  · exact fits.2
  · omega
  · omega

/-- The calls of `scanner`: I with the whole length, Q with one less and one value further. -/
def removeDcs (fftBuf : Nat → Int16) (bufLen ds : Nat) : Option (Nat → Int16) := do
  let first ← removeDc fftBuf 0 (bufLen / ds)
  removeDc first 1 (bufLen / ds - 1)

/-- Both calls do what they are for. -/
def RemovesBothDcs (fftBuf : Nat → Int16) (bufLen ds : Nat) : Prop :=
  ∃ first second,
    removeDc fftBuf 0 (bufLen / ds) = some first ∧
      removeDcs fftBuf bufLen ds = some second ∧
      RemovesDc fftBuf first 0 (bufLen / ds) ∧
      RemovesDc first second 1 (bufLen / ds - 1)

/--
The calls on a buffer that holds two samples or more of both channels leave sums that are
smaller than the numbers of samples exactly when these were so before, or are one of the
few that an odd length balances.
-/
theorem removesBothDcs_iff
    (fftBuf : Nat → Int16)
    {bufLen ds : Nat}
    (room : 2 ≤ bufLen / ds) :
    RemovesBothDcs fftBuf bufLen ds ↔
      Balanced (samples fftBuf 0) (bufLen / ds) ∧
        Balanced (samples fftBuf 1) (bufLen / ds - 1) := by
  have firstPositive : 0 < bufLen / ds := by omega
  have secondPositive : 0 < bufLen / ds - 1 := by omega
  obtain ⟨first, calledFirst, _, kept⟩ := removeDc_spec fftBuf 0 firstPositive
  obtain ⟨second, calledSecond, _, _⟩ := removeDc_spec first 1 secondPositive
  have other : samples first 1 = samples fftBuf 1 := by
    funext t
    exact kept _ (fun _ _ => by omega)
  have calls : removeDcs fftBuf bufLen ds = some second := by
    unfold removeDcs
    rw [calledFirst, Option.bind_eq_bind, Option.bind_some, calledSecond]
  rw [← other, ← removesDc_iff firstPositive calledFirst,
    ← removesDc_iff secondPositive calledSecond]
  unfold RemovesBothDcs
  constructor
  · rintro ⟨first', second', calledFirst', calls', removes⟩
    rw [calledFirst, Option.some.injEq] at calledFirst'
    rw [calls, Option.some.injEq] at calls'
    rwa [← calledFirst', ← calls'] at removes
  · intro removes
    exact ⟨first, second, calledFirst, calls, removes⟩

/-- Silence is balanced. -/
theorem removesBothDcs_silence :
    RemovesBothDcs (fun _ => 0) 16384 1 :=
  (removesBothDcs_iff (fun _ => 0) (by decide)).mpr
    ⟨.inl (by simp [samples, total]), .inl (by simp [samples, total])⟩

/-- A constant of 100 is lowered to 50. -/
theorem not_removesBothDcs_constant :
    ¬ RemovesBothDcs (fun _ => 100) 16384 1 := by
  rintro ⟨first, _, called, _, removes, _⟩
  have sum : total (samples (fun _ => 100) 0) ((16384 / 1 + 1) / 2) = 819200 := by
    simp [total, samples]
  rcases (removesDc_iff (by decide) called).mp removes with small | ⟨odd, _⟩
  · rw [sum] at small
    exact absurd small (by decide)
  · exact absurd odd (by decide)

end LibRtlSdr.RtlPower
