import LibRtlSdr.RtlPowerFftStages
import Mathlib.Analysis.SpecialFunctions.Trigonometric.Basic

namespace LibRtlSdr.RtlPower

/-!
# `fix_fft` in exact arithmetic

With products, halves and a table of sines that are exact, `fix_fft` computes the
discrete Fourier transform, divided by the number of values: each stage halves both legs
of its butterflies, and joins the partial transforms of even and of odd places.
-/

open Finset (range)
open RadixTwo (block reversal)

/-- Real numbers; every operation has a result. -/
noncomputable def exactArithmetic : Arithmetic ℝ where
  neg := fun value => some (-value)
  half := fun value => some (value / 2)
  mpy := fun a b => some (a * b)
  add := fun a b => some (a + b)
  sub := fun a b => some (a - b)

/-- `sine_table`, for an amplitude of 1 and without rounding. -/
noncomputable def sineTable (size : Nat) : List ℝ :=
  (List.range (2 ^ size * 3 / 4)).map fun (i : Nat) =>
    Real.sin (i * 2 * Real.pi / 2 ^ size)

/-- A pair of parts as a complex number. -/
def toComplex (value : ℝ × ℝ) : ℂ :=
  ⟨value.1, value.2⟩

/-- The root of unity that the table is made of, turning backwards. -/
noncomputable def root (m : Nat) : ℂ :=
  Complex.exp (-(2 * Real.pi * Complex.I / 2 ^ m))

/-! ## The table -/

/-- An entry of the table. -/
theorem sineTable_get
    {m index : Nat}
    (inside : index < 2 ^ m * 3 / 4) :
    (sineTable m)[index]? = some (Real.sin (index * 2 * Real.pi / 2 ^ m)) := by
  unfold sineTable
  rw [List.getElem?_map, List.getElem?_range inside]
  rfl

/-- A quarter of a turn further is the cosine. -/
theorem sin_quarter_add
    {m : Nat}
    (large : 2 ≤ m)
    (index : Nat) :
    Real.sin (((index + 2 ^ m / 4 : Nat) : ℝ) * 2 * Real.pi / 2 ^ m) =
      Real.cos (index * 2 * Real.pi / 2 ^ m) := by
  obtain ⟨rest, rfl⟩ : ∃ rest, m = rest + 2 := ⟨m - 2, by omega⟩
  have quarter : 2 ^ (rest + 2) / 4 = 2 ^ rest := by
    rw [Nat.pow_add]
    exact Nat.mul_div_cancel _ (by decide)
  have angle :
      ((index + 2 ^ rest : Nat) : ℝ) * 2 * Real.pi / 2 ^ (rest + 2) =
        index * 2 * Real.pi / 2 ^ (rest + 2) + Real.pi / 2 := by
    have nonzero : (2 : ℝ) ^ rest ≠ 0 := by positivity
    push_cast
    field_simp
    ring
  rw [quarter, angle, Real.sin_add_pi_div_two]

/-- A power of the root, in parts. -/
theorem root_pow (m index : Nat) :
    root m ^ index =
      ⟨Real.cos (index * 2 * Real.pi / 2 ^ m), -Real.sin (index * 2 * Real.pi / 2 ^ m)⟩ := by
  have angle :
      (index : ℂ) * -(2 * Real.pi * Complex.I / 2 ^ m) =
        ((-(index * 2 * Real.pi / 2 ^ m) : ℝ) : ℂ) * Complex.I := by
    push_cast
    ring
  unfold root
  rw [← Complex.exp_nat_mul, angle]
  apply Complex.ext
  · rw [Complex.exp_ofReal_mul_I_re, Real.cos_neg]
  · rw [Complex.exp_ofReal_mul_I_im, Real.sin_neg]

/-- The factor of a butterfly is half a power of the root. -/
theorem twiddle_exact
    {m index : Nat}
    (large : 2 ≤ m)
    (isHalfTurn : index < 2 ^ m / 2) :
    ∃ w,
      twiddle exactArithmetic (sineTable m) m index = some w ∧
        toComplex w = root m ^ index / 2 := by
  have inTable := quarter_add_lt isHalfTurn
  rw [Nat.mul_comm] at inTable
  refine
    ⟨(Real.cos (index * 2 * Real.pi / 2 ^ m) / 2,
      -Real.sin (index * 2 * Real.pi / 2 ^ m) / 2), ?_, ?_⟩
  · unfold twiddle
    rw [sineTable_get inTable, sineTable_get (by omega), sin_quarter_add large]
    rfl
  · rw [root_pow]
    apply Complex.ext <;> simp [toComplex]

/-- Half a turn of the root. -/
theorem root_halfTurn
    {s rest m : Nat}
    (isStage : s + 1 + rest = m) :
    (root m ^ 2 ^ rest) ^ 2 ^ s = -1 := by
  have half : ((2 ^ rest * 2 ^ s : Nat) : ℝ) * 2 * Real.pi / 2 ^ m = Real.pi := by
    have nonzero : (2 : ℝ) ^ m ≠ 0 := by positivity
    rw [div_eq_iff nonzero, ← isStage]
    push_cast
    ring
  rw [← pow_mul, root_pow, half]
  apply Complex.ext <;> simp

/-! ## The butterflies -/

/-- A butterfly on complex numbers. -/
theorem butterflyValues_exact (w atI atJ : ℝ × ℝ) :
    ∃ values,
      butterflyValues exactArithmetic w atI atJ = some values ∧
        toComplex values.1 = toComplex atI / 2 + toComplex w * toComplex atJ ∧
        toComplex values.2 = toComplex atI / 2 - toComplex w * toComplex atJ := by
  refine ⟨_, rfl, ?_, ?_⟩
  · apply Complex.ext <;> simp [toComplex]
  · apply Complex.ext <;> simp [toComplex]

/-- Behind `s` stages a block of values holds a partial transform. -/
def PartlyTransformed (m : Nat) (x : Nat → ℂ) (s : Nat) (iq : Nat → ℝ) : Prop :=
  ∀ index < 2 ^ (m - s), ∀ j < 2 ^ s,
    toComplex (cell iq (j + 2 ^ s * index)) =
      block (root m) (m - s) s x index j / 2 ^ s

/-- The reordered values are the transforms of one value each. -/
theorem partlyTransformed_zero
    {m : Nat}
    {iq ordered : Nat → ℝ}
    (isReversed : ∀ t < 2 ^ m, cell ordered t = cell iq (reversal m t)) :
    PartlyTransformed m (fun k => toComplex (cell iq k)) 0 ordered := by
  intro index isBlock j below
  obtain rfl : j = 0 := Nat.lt_one_iff.mp below
  rw [Nat.pow_zero, Nat.zero_add, Nat.one_mul, isReversed index isBlock,
    RadixTwo.block_zero, pow_zero, div_one]
  rfl

section Stage

variable {m s rest : Nat}

/-- The factors of a stage. -/
theorem twiddle_stage
    (large : 2 ≤ m)
    (isStage : s + 1 + rest = m)
    {j : Nat}
    (below : j < 2 ^ s) :
    ∃ w,
      twiddle exactArithmetic (sineTable m) m (j <<< (m - 1 - s)) = some w ∧
        toComplex w = (root m ^ 2 ^ rest) ^ j / 2 := by
  obtain ⟨w, isTwiddle, value⟩ := twiddle_exact large (shifted_lt m isStage below)
  have remaining : m - 1 - s = rest := by omega
  refine ⟨w, isTwiddle, ?_⟩
  rw [value, remaining, Nat.shiftLeft_eq, ← pow_mul, Nat.mul_comm]

/-- The butterflies of a stage, on the blocks behind the stage before. -/
theorem legs_exact
    (large : 2 ≤ m)
    (isStage : s + 1 + rest = m)
    {x : Nat → ℂ}
    {iq : Nat → ℝ}
    (holds : PartlyTransformed m x s iq)
    {index j : Nat}
    (isBlock : index < 2 ^ rest)
    (below : j < 2 ^ s) :
    ∃ values,
      legs exactArithmetic (sineTable m) m (2 ^ s) (m - 1 - s) iq index j =
          some values ∧
        toComplex values.1 = block (root m) rest (s + 1) x index j / 2 ^ (s + 1) ∧
        toComplex values.2 =
          block (root m) rest (s + 1) x index (j + 2 ^ s) / 2 ^ (s + 1) := by
  have blocks : m - s = rest + 1 := by omega
  have first : 2 * index < 2 ^ (m - s) := by
    rw [blocks, Nat.pow_succ]
    omega
  have second : 2 * index + 1 < 2 ^ (m - s) := by
    rw [blocks, Nat.pow_succ]
    omega
  have atI := holds (2 * index) first j below
  have atJ := holds (2 * index + 1) second j below
  rw [blocks] at atI atJ
  -- a block of the next stage is two of this one, at even and at odd places
  have placeI : j + 2 * 2 ^ s * index = j + 2 ^ s * (2 * index) := by ring
  have placeJ : j + 2 * 2 ^ s * index + 2 ^ s = j + 2 ^ s * (2 * index + 1) := by ring
  obtain ⟨w, isTwiddle, factor⟩ := twiddle_stage large isStage below
  obtain ⟨values, result, upper, lower⟩ :=
    butterflyValues_exact w (cell iq (j + 2 ^ s * (2 * index)))
      (cell iq (j + 2 ^ s * (2 * index + 1)))
  refine ⟨values, ?_, ?_, ?_⟩
  · unfold legs
    rw [isTwiddle, Option.bind_eq_bind, Option.bind_some, placeJ, placeI, result]
  · rw [upper, atI, atJ, factor, RadixTwo.block_succ, pow_succ]
    ring
  · rw [lower, atI, atJ, factor, RadixTwo.block_succ_add _ _ _ _ _ (root_halfTurn isStage),
      pow_succ]
    ring

/-- A stage joins the transforms of two blocks. -/
theorem partlyTransformed_succ
    (large : 2 ≤ m)
    (isStage : s + 1 + rest = m)
    {x : Nat → ℂ}
    {iq : Nat → ℝ}
    (holds : PartlyTransformed m x s iq) :
    ∃ next,
      stage exactArithmetic (sineTable m) m (2 ^ m) (2 ^ s) (m - 1 - s) iq = some next ∧
        PartlyTransformed m x (s + 1) next := by
  have whole := whole_of_stage isStage
  have present := Nat.two_pow_pos rest
  obtain ⟨next, result, transformed⟩ :=
    stage_transformed exactArithmetic (sineTable m) m whole present
      (fun index isBlock j below =>
        (legs_exact large isStage holds isBlock below).imp (fun _ found => found.1))
  refine ⟨next, result, ?_⟩
  have blocks : m - (s + 1) = rest := by omega
  intro index isBlock j below
  rw [blocks] at isBlock ⊢
  have width : 2 ^ (s + 1) * index = 2 * 2 ^ s * index := by
    rw [Nat.pow_succ']
  -- `j` is in the first or in the second half of the block
  rcases Nat.lt_or_ge j (2 ^ s) with inFirst | inSecond
  · obtain ⟨values, isLegs, upper, _⟩ := legs_exact large isStage holds isBlock inFirst
    have stored := isLegs.symm.trans (transformed.legs index isBlock j inFirst)
    rw [width, ← upper, Option.some.inj stored]
  · obtain ⟨offset, rfl⟩ : ∃ offset, j = offset + 2 ^ s := ⟨j - 2 ^ s, by omega⟩
    have inFirst : offset < 2 ^ s := by
      rw [Nat.pow_succ] at below
      omega
    obtain ⟨values, isLegs, _, lower⟩ := legs_exact large isStage holds isBlock inFirst
    have stored := isLegs.symm.trans (transformed.legs index isBlock offset inFirst)
    rw [width, ← lower, Option.some.inj stored, Nat.add_right_comm]

end Stage

/-! ## The transform -/

/--
With `N_WAVE = 2 ^ m` and exact arithmetic, `fix_fft` returns 0 and leaves the discrete
Fourier transform of its `2 ^ m` values, divided by their number.  A read behind the
table would have had no result.
-/
theorem fixFft_isTransform
    (m : Nat)
    (large : 2 ≤ m)
    (iq : Nat → ℝ) :
    (sineTable m).length = 3 * 2 ^ m / 4 ∧
      ∃ final,
        fixFft exactArithmetic (sineTable m) m iq m = some (0, final) ∧
          ∀ j < 2 ^ m,
            toComplex (cell final j) =
              1 / 2 ^ m *
                ∑ k ∈ range (2 ^ m),
                  toComplex (cell iq k) *
                    Complex.exp (-(2 * Real.pi * Complex.I * j * k / 2 ^ m)) := by
  constructor
  · unfold sineTable
    rw [List.length_map, List.length_range, Nat.mul_comm]
  obtain ⟨final, result, holds⟩ :=
    fixFft_rule exactArithmetic (sineTable m) m (Nat.le_refl m)
      (fun _ isReversed => partlyTransformed_zero isReversed)
      (fun _ _ _ isStage holds => partlyTransformed_succ large isStage holds)
  refine ⟨final, result, ?_⟩
  intro j below
  have last := holds 0 (Nat.two_pow_pos _) j below
  rw [Nat.mul_zero, Nat.add_zero, Nat.sub_self, RadixTwo.block_last] at last
  rw [last, RadixTwo.transform, one_div_mul_eq_div]
  congr 1
  apply Finset.sum_congr rfl
  intro k _
  congr 1
  unfold root
  rw [← Complex.exp_nat_mul]
  congr 1
  push_cast
  ring

/-- Four values, one of which is not zero. -/
theorem fixFft_isTransform_impulse :
    2 ≤ 2 ∧
      ∃ final,
        fixFft exactArithmetic (sineTable 2) 2 (fun t => if t = 0 then 1 else 0) 2 =
            some (0, final) ∧
          toComplex (cell final 3) = 1 / 4 := by
  refine ⟨Nat.le_refl 2, ?_⟩
  obtain ⟨_, final, result, holds⟩ :=
    fixFft_isTransform 2 (Nat.le_refl 2) (fun t => if t = 0 then 1 else 0)
  refine ⟨final, result, ?_⟩
  rw [holds 3 (by decide)]
  have impulse :
      ∀ k, toComplex (cell (fun t => if t = 0 then (1 : ℝ) else 0) k) =
        if k = 0 then 1 else 0 := by
    intro k
    apply Complex.ext <;> by_cases isFirst : k = 0 <;> simp [toComplex, cell, isFirst]
  simp only [impulse]
  norm_num [Finset.sum_range_succ]

end LibRtlSdr.RtlPower
