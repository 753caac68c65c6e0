import Mathlib.Algebra.BigOperators.Intervals
import Mathlib.Algebra.BigOperators.Ring.Finset
import Mathlib.Tactic.Ring

namespace LibRtlSdr.RadixTwo

/-!
# Transforms of a power of two of samples

The transform of twice as many samples is put together from the transforms of those at
even and at odd places.  Doing this over and over, one meets the samples in the order of
their reversed bits: this module has the reversal, the two identities of a butterfly, and
the partial transforms between the samples and the whole.
-/

open Finset (range)

/-! ## Reversed bits -/

/-- The lowest `width` bits in reversed order. -/
def reversal : Nat → Nat → Nat
  | 0, _ =>
      0
  | width + 1, index =>
      index % 2 * 2 ^ width + reversal width (index / 2)

theorem reversal_lt (width index : Nat) : reversal width index < 2 ^ width := by
  induction width generalizing index with
  | zero =>
      exact Nat.one_pos
  | succ width inductionHypothesis =>
      have rest := inductionHypothesis (index / 2)
      rw [reversal, Nat.pow_succ]
      rcases Nat.mod_two_eq_zero_or_one index with even | odd
      · rw [even]
        omega
      · rw [odd]
        omega

@[simp] theorem reversal_zero (width : Nat) : reversal width 0 = 0 := by
  induction width with
  | zero =>
      rfl
  | succ width inductionHypothesis =>
      rw [reversal, inductionHypothesis]
      simp

/-- An even index. -/
theorem reversal_two_mul (width index : Nat) :
    reversal (width + 1) (2 * index) = reversal width index := by
  rw [reversal, Nat.mul_mod_right, Nat.zero_mul, Nat.zero_add,
    Nat.mul_div_cancel_left _ (by decide)]

/-- An odd index. -/
theorem reversal_two_mul_add_one (width index : Nat) :
    reversal (width + 1) (2 * index + 1) = 2 ^ width + reversal width index := by
  have odd : (2 * index + 1) % 2 = 1 := by omega
  have half : (2 * index + 1) / 2 = index := by omega
  rw [reversal, odd, half, Nat.one_mul]

/-- The highest bit becomes the lowest. -/
theorem reversal_high
    {width low : Nat}
    (isLow : low < 2 ^ width)
    (high : Nat)
    (isBit : high < 2) :
    reversal (width + 1) (high * 2 ^ width + low) = 2 * reversal width low + high := by
  induction width generalizing low with
  | zero =>
      have isZero : low = 0 := Nat.lt_one_iff.mp isLow
      rw [isZero]
      simp only [reversal, Nat.pow_zero, Nat.mul_one, Nat.add_zero]
      omega
  | succ width inductionHypothesis =>
      rw [Nat.pow_succ] at isLow
      have half :
          (high * 2 ^ (width + 1) + low) / 2 = high * 2 ^ width + low / 2 := by
        rw [Nat.pow_succ, ← Nat.mul_assoc]
        omega
      have parity : (high * 2 ^ (width + 1) + low) % 2 = low % 2 := by
        rw [Nat.pow_succ, ← Nat.mul_assoc]
        omega
      rw [reversal, half, parity, @inductionHypothesis (low / 2) (by omega),
        reversal, Nat.pow_succ]
      ring

/-- Reversing twice gives the index back. -/
theorem reversal_reversal
    {width index : Nat}
    (inRange : index < 2 ^ width) :
    reversal width (reversal width index) = index := by
  induction width generalizing index with
  | zero =>
      exact (Nat.lt_one_iff.mp inRange).symm
  | succ width inductionHypothesis =>
      rw [Nat.pow_succ] at inRange
      have lowest : index % 2 < 2 := Nat.mod_lt _ (by decide)
      rw [show reversal (width + 1) index =
        index % 2 * 2 ^ width + reversal width (index / 2) from rfl,
        reversal_high (reversal_lt width _) _ lowest, inductionHypothesis (by omega)]
      exact Nat.div_add_mod index 2

/-- The reversed index has the bits of the index, from the other end. -/
theorem testBit_reversal (width index bit : Nat) :
    (reversal width index).testBit bit =
      if bit < width then index.testBit (width - 1 - bit) else false := by
  induction width generalizing index with
  | zero =>
      simp [reversal]
  | succ width inductionHypothesis =>
      have low := reversal_lt width (index / 2)
      have lowest : index % 2 < 2 := Nat.mod_lt _ (by decide)
      rw [reversal, Nat.mul_comm, Nat.testBit_two_pow_mul_add _ low, inductionHypothesis]
      rcases Nat.lt_trichotomy bit width with isBelow | isTop | isAbove
      · have shifted : width + 1 - 1 - bit = width - 1 - bit + 1 := by omega
        rw [if_pos isBelow, if_pos isBelow, if_pos (by omega), shifted,
          Nat.testBit_succ]
      · rw [isTop, if_neg (Nat.lt_irrefl width), if_pos (Nat.lt_succ_self width)]
        simp
      · have next : bit - width = bit - width - 1 + 1 := by omega
        have none : index % 2 / 2 = 0 := by omega
        rw [if_neg (by omega), if_neg (by omega), next, Nat.testBit_succ, none,
          Nat.zero_testBit]

/-- The next reversed index, behind an even one. -/
theorem reversal_succ_of_even
    {width index : Nat}
    (even : index % 2 = 0) :
    reversal (width + 1) (index + 1) = 2 ^ width + reversal (width + 1) index := by
  obtain ⟨half, rfl⟩ : ∃ half, index = 2 * half := ⟨index / 2, by omega⟩
  rw [reversal_two_mul_add_one, reversal_two_mul]

section Samples

variable {Sample : Type} (samples : Nat → Sample) (rest index : Nat)

/-- The samples of a block at even places are those of a block of the stage before. -/
theorem samples_even :
    (fun k => samples (reversal rest index + 2 ^ rest * (2 * k))) =
      fun k => samples (reversal (rest + 1) (2 * index) + 2 ^ (rest + 1) * k) := by
  funext k
  rw [reversal_two_mul, Nat.pow_succ, Nat.mul_assoc]

/-- And those at odd places are those of the next. -/
theorem samples_odd :
    (fun k => samples (reversal rest index + 2 ^ rest * (2 * k + 1))) =
      fun k => samples (reversal (rest + 1) (2 * index + 1) + 2 ^ (rest + 1) * k) := by
  funext k
  rw [reversal_two_mul_add_one]
  congr 1
  ring

end Samples

/-! ## Transforms -/

section Transform

variable {R : Type} [CommRing R]

/-- Place `j` of the transform of `count` samples, with a root `w` of unity. -/
def transform (w : R) (count : Nat) (samples : Nat → R) (j : Nat) : R :=
  ∑ k ∈ range count, samples k * w ^ (j * k)

/-- A sum over twice as many places. -/
theorem sum_range_two_mul (value : Nat → R) (count : Nat) :
    ∑ k ∈ range (2 * count), value k =
      ∑ k ∈ range count, value (2 * k) + ∑ k ∈ range count, value (2 * k + 1) := by
  induction count with
  | zero =>
      simp
  | succ count inductionHypothesis =>
      rw [Nat.mul_succ, Finset.sum_range_succ, Finset.sum_range_succ,
        inductionHypothesis, Finset.sum_range_succ, Finset.sum_range_succ]
      ring

/-- The upper leg of a butterfly. -/
theorem transform_two_mul
    (w : R)
    (count : Nat)
    (samples : Nat → R)
    (j : Nat) :
    transform w (2 * count) samples j =
      transform (w ^ 2) count (fun k => samples (2 * k)) j +
        w ^ j * transform (w ^ 2) count (fun k => samples (2 * k + 1)) j := by
  unfold transform
  rw [sum_range_two_mul, Finset.mul_sum]
  congr 1
  · apply Finset.sum_congr rfl
    intro k _
    ring
  · apply Finset.sum_congr rfl
    intro k _
    ring

/-- The lower leg: half a turn further, the odd places change their sign. -/
theorem transform_two_mul_add
    {w : R}
    {count : Nat}
    (halfTurn : w ^ count = -1)
    (samples : Nat → R)
    (j : Nat) :
    transform w (2 * count) samples (j + count) =
      transform (w ^ 2) count (fun k => samples (2 * k)) j -
        w ^ j * transform (w ^ 2) count (fun k => samples (2 * k + 1)) j := by
  have turn (k : Nat) : (w ^ 2) ^ ((j + count) * k) = (w ^ 2) ^ (j * k) := by
    have full : (w ^ 2) ^ (count * k) = 1 := by
      rw [← pow_mul, Nat.mul_left_comm, pow_mul, halfTurn, pow_mul, neg_one_sq,
        one_pow]
    rw [Nat.add_mul, pow_add, full, mul_one]
  rw [transform_two_mul, pow_add, halfTurn]
  unfold transform
  simp only [turn]
  ring

/-! ## Partial transforms -/

/--
A block of `2 ^ stage` places: the transform of the samples whose place has the reversed
bits of the block at its lower end, of which there are `rest`.
-/
def block (w : R) (rest stage : Nat) (samples : Nat → R) (index j : Nat) : R :=
  transform (w ^ 2 ^ rest) (2 ^ stage)
    (fun k => samples (reversal rest index + 2 ^ rest * k)) j

/-- Before the first stage the samples stand in reversed order. -/
theorem block_zero
    (w : R)
    (rest : Nat)
    (samples : Nat → R)
    (index : Nat) :
    block w rest 0 samples index 0 = samples (reversal rest index) := by
  simp [block, transform]

/-- Behind the last stage there is one block, the transform. -/
theorem block_last
    (w : R)
    (stage : Nat)
    (samples : Nat → R)
    (j : Nat) :
    block w 0 stage samples 0 j = transform w (2 ^ stage) samples j := by
  simp [block, reversal]

section Stage

variable (w : R) (rest stage : Nat) (samples : Nat → R) (index j : Nat)

/-- A stage: the first half of a block. -/
theorem block_succ :
    block w rest (stage + 1) samples index j =
      block w (rest + 1) stage samples (2 * index) j +
        (w ^ 2 ^ rest) ^ j * block w (rest + 1) stage samples (2 * index + 1) j := by
  unfold block
  rw [Nat.pow_succ', transform_two_mul, ← pow_mul, ← Nat.pow_succ, samples_even,
    samples_odd]

/-- A stage: the second half of a block. -/
theorem block_succ_add
    {w : R}
    (halfTurn : (w ^ 2 ^ rest) ^ 2 ^ stage = -1) :
    block w rest (stage + 1) samples index (j + 2 ^ stage) =
      block w (rest + 1) stage samples (2 * index) j -
        (w ^ 2 ^ rest) ^ j * block w (rest + 1) stage samples (2 * index + 1) j := by
  unfold block
  rw [Nat.pow_succ', transform_two_mul_add halfTurn, ← pow_mul, ← Nat.pow_succ,
    samples_even, samples_odd]

end Stage

end Transform

end LibRtlSdr.RadixTwo
