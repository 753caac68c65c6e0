import LibRtlSdr.RtlPowerFftInt16
import Mathlib.Analysis.Complex.Basic
import Mathlib.Tactic.Linarith
import Mathlib.Tactic.NormNum
import Mathlib.Tactic.Positivity
import Mathlib.Tactic.Ring

namespace LibRtlSdr.RtlPower

/-!
# The headroom of `fix_fft`

A component may grow by the square root of 2 in each stage, but the modulus does not: a
butterfly halves its first leg, and multiplies the second by a factor of a modulus of
about a half.  What the modulus gains is from rounding, at most 4 in a stage.
-/

/-! ## Moduli -/

/-- A pair of parts as a point of the complex plane. -/
def point (value : Int16 × Int16) : ℂ :=
  ⟨value.1.toInt, value.2.toInt⟩

/-- A part of a point is not larger than its modulus. -/
theorem fits_of_norm_le
    {z : ℂ}
    (bounded : ‖z‖ ≤ 32767)
    {value : Int}
    (isPart : (value : ℝ) = z.re ∨ (value : ℝ) = z.im) :
    -32768 ≤ value ∧ value ≤ 32767 := by
  have part : |(value : ℝ)| ≤ 32767 := by
    rcases isPart with isRe | isIm
    · rw [isRe]
      exact (Complex.abs_re_le_norm z).trans bounded
    · rw [isIm]
      exact (Complex.abs_im_le_norm z).trans bounded
  rw [abs_le] at part
  obtain ⟨least, most⟩ := part
  constructor
  · have least' : ((-32767 : Int) : ℝ) ≤ value := by exact_mod_cast least
    have integral : -32767 ≤ value := Int.cast_le.mp least'
    omega
  · have most' : (value : ℝ) ≤ ((32767 : Int) : ℝ) := by exact_mod_cast most
    exact Int.cast_le.mp most'

/-- An assignment of a value that fits. -/
theorem untruncated_of_fits
    {value : Int}
    (fits : -32768 ≤ value ∧ value ≤ 32767) :
    ∃ result, untruncated value = some result ∧ result.toInt = value := by
  refine ⟨Int16.ofInt value, if_pos fits, ?_⟩
  exact Int16.toInt_ofInt_of_le (by omega) (by omega)

/-- The assignments of both parts of a point. -/
theorem untruncated_point
    {re im : Int}
    {bound : ℝ}
    (isBound : bound ≤ 32767)
    (bounded : ‖(⟨re, im⟩ : ℂ)‖ ≤ bound) :
    ∃ first second,
      untruncated re = some first ∧ untruncated im = some second ∧
        point (first, second) = ⟨re, im⟩ := by
  have inside := bounded.trans isBound
  obtain ⟨first, isFirst, firstValue⟩ :=
    untruncated_of_fits (fits_of_norm_le inside (.inl rfl))
  obtain ⟨second, isSecond, secondValue⟩ :=
    untruncated_of_fits (fits_of_norm_le inside (.inr rfl))
  refine ⟨first, second, isFirst, isSecond, ?_⟩
  unfold point
  rw [firstValue, secondValue]

/-- A modulus from the squares of the parts. -/
theorem norm_le_of_squares
    {z : ℂ}
    {bound : ℝ}
    (nonneg : 0 ≤ bound)
    (squares : z.re ^ 2 + z.im ^ 2 ≤ bound ^ 2) :
    ‖z‖ ≤ bound := by
  rw [Complex.norm_def, Real.sqrt_le_iff, Complex.normSq_apply, ← sq, ← sq]
  exact ⟨nonneg, squares⟩

/-- Two points whose parts are close. -/
theorem norm_sub_le_of_parts
    {z other : ℂ}
    {first second : ℝ}
    (re : |z.re - other.re| ≤ first)
    (im : |z.im - other.im| ≤ second) :
    ‖z - other‖ ≤ first + second := by
  have parts := Complex.norm_le_abs_re_add_abs_im (z - other)
  rw [Complex.sub_re, Complex.sub_im] at parts
  linarith

/-! ## Rounding -/

/-- `>>= 1` is at most half a unit off. -/
theorem half_rounding (value : Int16) :
    ∃ result,
      (int16Arithmetic untruncated).half value = some result ∧
        |(result.toInt : ℝ) - (value.toInt : ℝ) / 2| ≤ 1 / 2 := by
  have least := value.le_toInt
  have most := value.toInt_lt
  have quotient : value.toInt >>> (1 : Nat) = value.toInt / 2 :=
    Int.shiftRight_eq_div_pow _ 1
  obtain ⟨result, assigned, isQuotient⟩ :=
    @untruncated_of_fits (value.toInt / 2) (by omega)
  refine ⟨result, ?_, ?_⟩
  · simp only [int16Arithmetic]
    rw [quotient, assigned]
  · have lower : 2 * result.toInt ≤ value.toInt := by omega
    have upper : value.toInt ≤ 2 * result.toInt + 1 := by omega
    have lower' : 2 * (result.toInt : ℝ) ≤ value.toInt := by exact_mod_cast lower
    have upper' : (value.toInt : ℝ) ≤ 2 * result.toInt + 1 := by exact_mod_cast upper
    rw [abs_le]
    constructor <;> linarith

/-- `FIX_MPY` rounds to the nearest, for a first factor of no more than about a half. -/
theorem mpy_rounding
    {a : Int16}
    (small : -16385 ≤ a.toInt ∧ a.toInt ≤ 16385)
    (b : Int16) :
    ∃ result,
      (int16Arithmetic untruncated).mpy a b = some result ∧
        |(result.toInt : ℝ) - (a.toInt : ℝ) * b.toInt / 32768| ≤ 1 / 2 := by
  have product : |a.toInt * b.toInt| ≤ 16385 * 32768 := by
    rw [abs_mul]
    have second : |b.toInt| ≤ 32768 := by
      have least := b.le_toInt
      have most := b.toInt_lt
      rw [abs_le]
      omega
    exact mul_le_mul (abs_le.mpr small) second (abs_nonneg _) (by decide)
  rw [abs_le] at product
  have fourteen :
      (a.toInt * b.toInt) >>> (14 : Nat) = a.toInt * b.toInt / 16384 :=
    Int.shiftRight_eq_div_pow _ 14
  have one (c : Int) : c >>> (1 : Nat) = c / 2 :=
    Int.shiftRight_eq_div_pow _ 1
  simp only [int16Arithmetic]
  rw [fourteen, one]
  have exact : ((a.toInt * b.toInt : Int) : ℝ) = (a.toInt : ℝ) * b.toInt := by
    push_cast
    rfl
  rw [← exact]
  generalize a.toInt * b.toInt = p at product
  obtain ⟨bit, isBit, bitValue⟩ := @untruncated_of_fits (p / 16384 % 2) (by omega)
  obtain ⟨result, assigned, isResult⟩ :=
    @untruncated_of_fits (p / 16384 / 2 + p / 16384 % 2) (by omega)
  refine ⟨result, ?_, ?_⟩
  · rw [isBit, Option.bind_eq_bind, Option.bind_some, bitValue, assigned]
  · -- the bit that the second shift drops is added again, so a half is rounded up
    have lower : p ≤ 32768 * result.toInt + 16384 := by omega
    have upper : 32768 * result.toInt ≤ p + 16384 := by omega
    have lower' : (p : ℝ) ≤ 32768 * result.toInt + 16384 := by exact_mod_cast lower
    have upper' : 32768 * (result.toInt : ℝ) ≤ p + 16384 := by exact_mod_cast upper
    rw [abs_le]
    constructor <;> linarith

/-! ## A butterfly -/

/-- The factors have a modulus of half a unit, and what rounding adds. -/
theorem twiddle_headroom
    {sinewave : List Int16}
    {log2NWave index : Nat}
    {sine cosine : Int16}
    (isSine : sinewave[index]? = some sine)
    (isCosine : sinewave[index + 2 ^ log2NWave / 4]? = some cosine)
    (inRange : -32767 ≤ sine.toInt)
    (onCircle : sine.toInt ^ 2 + cosine.toInt ^ 2 ≤ 32768 ^ 2) :
    ∃ w,
      twiddle (int16Arithmetic untruncated) sinewave log2NWave index = some w ∧
        ‖point w‖ ≤ 16385 := by
  have most := sine.toInt_lt
  obtain ⟨negated, assigned, isNegated⟩ := @untruncated_of_fits (-sine.toInt) (by omega)
  obtain ⟨wr, isWr, wrRounding⟩ := half_rounding cosine
  obtain ⟨wi, isWi, wiRounding⟩ := half_rounding negated
  have exact :
      ‖(⟨(cosine.toInt : ℝ) / 2, (negated.toInt : ℝ) / 2⟩ : ℂ)‖ ≤ 16384 := by
    have onCircle' : (sine.toInt : ℝ) ^ 2 + (cosine.toInt : ℝ) ^ 2 ≤ 32768 ^ 2 := by
      exact_mod_cast onCircle
    apply norm_le_of_squares (by norm_num)
    rw [isNegated]
    push_cast
    linarith
  have close :
      ‖point (wr, wi) - ⟨(cosine.toInt : ℝ) / 2, (negated.toInt : ℝ) / 2⟩‖ ≤
        1 / 2 + 1 / 2 :=
    norm_sub_le_of_parts wrRounding wiRounding
  have triangle := norm_le_norm_add_norm_sub' (point (wr, wi))
    (⟨(cosine.toInt : ℝ) / 2, (negated.toInt : ℝ) / 2⟩ : ℂ)
  refine ⟨(wr, wi), ?_, by linarith⟩
  have isNegation : (int16Arithmetic untruncated).neg sine = some negated := assigned
  unfold twiddle
  simp only [isCosine, isSine, isNegation, isWr, isWi, Option.bind_eq_bind,
    Option.bind_some]

section Butterfly

variable {bound : ℝ} {w atI atJ : Int16 × Int16}

/-- A factor fits its bound in each part. -/
theorem factor_parts
    (isFactor : ‖point w‖ ≤ 16385) :
    (-16385 ≤ w.1.toInt ∧ w.1.toInt ≤ 16385) ∧
      (-16385 ≤ w.2.toInt ∧ w.2.toInt ≤ 16385) := by
  have re := (Complex.abs_re_le_norm (point w)).trans isFactor
  have im := (Complex.abs_im_le_norm (point w)).trans isFactor
  rw [abs_le] at re im
  simp only [point] at re im
  exact ⟨by exact_mod_cast re, by exact_mod_cast im⟩

/-- `tr` and `ti`. -/
theorem turned_headroom
    (isBound : bound ≤ 32763)
    (isFactor : ‖point w‖ ≤ 16385)
    (bounded : ‖point atJ‖ ≤ bound) :
    ∃ wrRe wiIm tr wrIm wiRe ti,
      (int16Arithmetic untruncated).mpy w.1 atJ.1 = some wrRe ∧
        (int16Arithmetic untruncated).mpy w.2 atJ.2 = some wiIm ∧
        (int16Arithmetic untruncated).sub wrRe wiIm = some tr ∧
        (int16Arithmetic untruncated).mpy w.1 atJ.2 = some wrIm ∧
        (int16Arithmetic untruncated).mpy w.2 atJ.1 = some wiRe ∧
        (int16Arithmetic untruncated).add wrIm wiRe = some ti ∧
        ‖point (tr, ti)‖ ≤ bound / 2 + 3 := by
  obtain ⟨smallRe, smallIm⟩ := factor_parts isFactor
  obtain ⟨wrRe, isWrRe, wrReRounding⟩ := mpy_rounding smallRe atJ.1
  obtain ⟨wiIm, isWiIm, wiImRounding⟩ := mpy_rounding smallIm atJ.2
  obtain ⟨wrIm, isWrIm, wrImRounding⟩ := mpy_rounding smallRe atJ.2
  obtain ⟨wiRe, isWiRe, wiReRounding⟩ := mpy_rounding smallIm atJ.1
  have product : ‖point w * point atJ / 32768‖ ≤ bound / 2 + 1 := by
    have moduli : ‖point w‖ * ‖point atJ‖ ≤ 16385 * bound :=
      mul_le_mul isFactor bounded (norm_nonneg _) (by norm_num)
    rw [norm_div, norm_mul, Complex.norm_ofNat]
    linarith
  rw [abs_le] at wrReRounding wiImRounding wrImRounding wiReRounding
  have close :
      ‖(⟨((wrRe.toInt - wiIm.toInt : Int) : ℝ),
            ((wrIm.toInt + wiRe.toInt : Int) : ℝ)⟩ : ℂ) -
          point w * point atJ / 32768‖ ≤ 1 + 1 := by
    apply norm_sub_le_of_parts
    · rw [abs_le]
      simp only [point, Complex.div_ofNat_re, Complex.mul_re]
      push_cast
      constructor <;> linarith
    · rw [abs_le]
      simp only [point, Complex.div_ofNat_im, Complex.mul_im]
      push_cast
      constructor <;> linarith
  have triangle := norm_le_norm_add_norm_sub'
    (⟨((wrRe.toInt - wiIm.toInt : Int) : ℝ), ((wrIm.toInt + wiRe.toInt : Int) : ℝ)⟩ : ℂ)
    (point w * point atJ / 32768)
  have turned :
      ‖(⟨((wrRe.toInt - wiIm.toInt : Int) : ℝ),
            ((wrIm.toInt + wiRe.toInt : Int) : ℝ)⟩ : ℂ)‖ ≤
        bound / 2 + 3 := by
    linarith
  obtain ⟨tr, ti, isTr, isTi, isPoint⟩ :=
    @untruncated_point _ _ (bound / 2 + 3) (by linarith) turned
  refine ⟨wrRe, wiIm, tr, wrIm, wiRe, ti, isWrRe, isWiIm, isTr, isWrIm, isWiRe, isTi, ?_⟩
  rw [isPoint]
  exact turned

/-- `qr` and `qi`. -/
theorem halved_headroom (bounded : ‖point atI‖ ≤ bound) :
    ∃ qr qi,
      (int16Arithmetic untruncated).half atI.1 = some qr ∧
        (int16Arithmetic untruncated).half atI.2 = some qi ∧
        ‖point (qr, qi)‖ ≤ bound / 2 + 1 := by
  obtain ⟨qr, isQr, qrRounding⟩ := half_rounding atI.1
  obtain ⟨qi, isQi, qiRounding⟩ := half_rounding atI.2
  have half : ‖point atI / 2‖ ≤ bound / 2 := by
    rw [norm_div, Complex.norm_ofNat]
    linarith
  have close : ‖point (qr, qi) - point atI / 2‖ ≤ 1 / 2 + 1 / 2 := by
    apply norm_sub_le_of_parts
    · rw [Complex.div_ofNat_re]
      exact qrRounding
    · rw [Complex.div_ofNat_im]
      exact qiRounding
  have triangle := norm_le_norm_add_norm_sub' (point (qr, qi)) (point atI / 2)
  exact ⟨qr, qi, isQr, isQi, by linarith⟩

/-- A butterfly truncates nothing, and adds at most 4 to the modulus. -/
theorem butterflyValues_headroom
    (isBound : bound ≤ 32763)
    (isFactor : ‖point w‖ ≤ 16385)
    (boundedI : ‖point atI‖ ≤ bound)
    (boundedJ : ‖point atJ‖ ≤ bound) :
    ∃ values,
      butterflyValues (int16Arithmetic untruncated) w atI atJ = some values ∧
        ‖point values.1‖ ≤ bound + 4 ∧ ‖point values.2‖ ≤ bound + 4 := by
  obtain ⟨wrRe, wiIm, tr, wrIm, wiRe, ti, isWrRe, isWiIm, isTr, isWrIm, isWiRe, isTi,
    turned⟩ := turned_headroom isBound isFactor boundedJ
  obtain ⟨qr, qi, isQr, isQi, halved⟩ := halved_headroom boundedI
  have isSum :
      (⟨((qr.toInt + tr.toInt : Int) : ℝ), ((qi.toInt + ti.toInt : Int) : ℝ)⟩ : ℂ) =
        point (qr, qi) + point (tr, ti) := by
    apply Complex.ext <;> simp [point]
  have isDifference :
      (⟨((qr.toInt - tr.toInt : Int) : ℝ), ((qi.toInt - ti.toInt : Int) : ℝ)⟩ : ℂ) =
        point (qr, qi) - point (tr, ti) := by
    apply Complex.ext <;> simp [point]
  have sum := norm_add_le (point (qr, qi)) (point (tr, ti))
  have difference := norm_sub_le (point (qr, qi)) (point (tr, ti))
  rw [← isSum] at sum
  rw [← isDifference] at difference
  obtain ⟨ir, ii, isIr, isIi, pointI⟩ :=
    @untruncated_point _ _ (bound + 4) (by linarith) (sum.trans (by linarith))
  obtain ⟨jr, ji, isJr, isJi, pointJ⟩ :=
    @untruncated_point _ _ (bound + 4) (by linarith) (difference.trans (by linarith))
  have toJr : (int16Arithmetic untruncated).sub qr tr = some jr := isJr
  have toJi : (int16Arithmetic untruncated).sub qi ti = some ji := isJi
  have toIr : (int16Arithmetic untruncated).add qr tr = some ir := isIr
  have toIi : (int16Arithmetic untruncated).add qi ti = some ii := isIi
  refine ⟨((ir, ii), (jr, ji)), ?_, ?_, ?_⟩
  · unfold butterflyValues
    simp only [isWrRe, isWiIm, isTr, isWrIm, isWiRe, isTi, isQr, isQi, toJr, toJi, toIr,
      toIi, Option.bind_eq_bind, Option.bind_some]
  · rw [pointI]
    linarith
  · rw [pointJ]
    linarith

end Butterfly

/-! ## All stages -/

/-- What is assumed of a table: three quarters of a turn, on or inside the circle. -/
structure OnCircle (sinewave : List Int16) (m : Nat) : Prop where
  length : sinewave.length = 3 * 2 ^ m / 4
  entries : ∀ entry ∈ sinewave, -32767 ≤ entry.toInt ∧ entry.toInt ≤ 32767
  circle :
    ∀ j < 2 ^ m / 2, ∀ sine cosine,
      sinewave[j]? = some sine →
      sinewave[j + 2 ^ m / 4]? = some cosine →
      sine.toInt ^ 2 + cosine.toInt ^ 2 ≤ 32768 ^ 2

/-- The factors of every stage. -/
theorem OnCircle.twiddle
    {sinewave : List Int16}
    {m index : Nat}
    (onCircle : OnCircle sinewave m)
    (isHalfTurn : index < 2 ^ m / 2) :
    ∃ w,
      RtlPower.twiddle (int16Arithmetic untruncated) sinewave m index = some w ∧
        ‖point w‖ ≤ 16385 := by
  have inTable := quarter_add_lt isHalfTurn
  rw [← onCircle.length] at inTable
  have isSine := List.getElem?_eq_getElem (show index < sinewave.length by omega)
  have isCosine := List.getElem?_eq_getElem inTable
  exact twiddle_headroom isSine isCosine (onCircle.entries _ (List.getElem_mem _)).1
    (onCircle.circle index isHalfTurn _ _ isSine isCosine)

/--
With a table for `N_WAVE = 2 ^ m` and values of a modulus of at most 32000, no assignment
of `fix_fft` truncates: it returns 0 from a run in which each keeps its value, and that
is the run of the machine.
-/
theorem fixFft_untruncated
    {m : Nat}
    (least : 2 ≤ m)
    (most : m ≤ 21)
    {sinewave : List Int16}
    (onCircle : OnCircle sinewave m)
    {iq : Nat → Int16}
    (inputs :
      ∀ t < 2 ^ m, (cell iq t).1.toInt ^ 2 + (cell iq t).2.toInt ^ 2 ≤ 32000 ^ 2) :
    ∃ final,
      fixFft (int16Arithmetic untruncated) sinewave m iq m = some (0, final) ∧
        fixFft (int16Arithmetic truncated) sinewave m iq m = some (0, final) := by
  obtain ⟨final, result, _⟩ :=
    @fixFft_rule _ (int16Arithmetic untruncated) sinewave m m (Nat.le_refl m) iq
      (fun s iq => ∀ t < 2 ^ m, ‖point (cell iq t)‖ ≤ 32000 + 4 * s)
      (by
        intro ordered isReversed t inside
        rw [isReversed t inside]
        apply norm_le_of_squares (by norm_num)
        have input := inputs _ (RadixTwo.reversal_lt m t)
        simp only [point, Nat.cast_zero, mul_zero, add_zero]
        exact_mod_cast input)
      (by
        intro s rest iq isStage holds
        -- 21 stages add no more than 84
        have isBound : (32000 + 4 * s : ℝ) ≤ 32763 := by
          have few : s ≤ 20 := by omega
          have few' : (s : ℝ) ≤ 20 := by exact_mod_cast few
          linarith
        have next : (32000 + 4 * ((s + 1 : Nat) : ℝ)) = 32000 + 4 * s + 4 := by
          push_cast
          ring
        rw [next]
        refine
          @stage_preserves _ (int16Arithmetic untruncated) sinewave m _ _ _
            (whole_of_stage isStage) (Nat.two_pow_pos rest) _
            (fun value => ‖point value‖ ≤ 32000 + 4 * s)
            (fun value => ‖point value‖ ≤ 32000 + 4 * s + 4) ?_ _ holds
        intro j below
        obtain ⟨w, isTwiddle, isFactor⟩ := onCircle.twiddle (shifted_lt m isStage below)
        refine ⟨w, isTwiddle, ?_⟩
        intro atI atJ boundedI boundedJ
        exact butterflyValues_headroom isBound isFactor boundedI boundedJ)
  exact ⟨final, result, fixFft_within int16Arithmetic_within sinewave m iq m _ result⟩

/-- A table of four angles, and the largest real values. -/
theorem fixFft_untruncated_four :
    OnCircle [0, 32767, 0] 2 ∧
      ∃ final,
        fixFft (int16Arithmetic untruncated) [0, 32767, 0] 2
            (fun t => if t % 2 = 0 then 32000 else 0) 2 =
          some (0, final) ∧
        fixFft (int16Arithmetic truncated) [0, 32767, 0] 2
            (fun t => if t % 2 = 0 then 32000 else 0) 2 =
          some (0, final) := by
  have onCircle : OnCircle [0, 32767, 0] 2 := by
    constructor
    · rfl
    · intro entry member
      simp only [List.mem_cons, List.not_mem_nil, or_false] at member
      rcases member with rfl | rfl | rfl
      · exact ⟨by decide, by decide⟩
      · exact ⟨by decide, by decide⟩
      · exact ⟨by decide, by decide⟩
    · intro j below sine cosine isSine isCosine
      obtain rfl | rfl : j = 0 ∨ j = 1 := by omega
      all_goals
        cases isSine
        cases isCosine
        decide
  refine ⟨onCircle, fixFft_untruncated (Nat.le_refl 2) (by decide) onCircle ?_⟩
  intro t inside
  have isEven : 2 * t % 2 = 0 := by omega
  have isOdd : (2 * t + 1) % 2 ≠ 0 := by omega
  simp only [cell]
  rw [if_pos isEven, if_neg isOdd]
  decide

end LibRtlSdr.RtlPower
