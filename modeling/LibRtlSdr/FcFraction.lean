import LibRtlSdr.FcCycles
import Mathlib.Algebra.Order.Field.Rat
import Mathlib.Algebra.Order.Group.Abs
import Mathlib.Tactic.FieldSimp
import Mathlib.Tactic.NormNum

namespace LibRtlSdr

open DriverProgram ByteChip NearestMultiples

/-!
# The fraction of the FC0012 and FC0013

The whole steps of the VCO frequency are rounded by the remainder in Hz, and the
fraction is taken to be negative by the remainder in kHz, without knowing of the
other decision.  Where the two differ the tuner is off by a step.
-/

namespace FcTuner

/-- The signed 16 bits of the registers 3 and 4. -/
def signedFraction (registers : UInt8 → UInt8) : Int :=
  ((registers 3).toBitVec ++ (registers 4).toBitVec).toInt

/-- The whole steps of the registers 1 and 2. -/
def wholeSteps (registers : UInt8 → UInt8) : Nat :=
  8 * (registers 2).toNat + (registers 1).toNat

/-- The registers make the product, to 5 kHz, of a clock. -/
def Synthesizes (clock : UInt32) (product : Nat) (registers : UInt8 → UInt8) : Prop :=
  |((clock.toNat / 2 : Nat) : ℚ) *
        ((wholeSteps registers : ℚ) + (signedFraction registers : ℚ) / 32768) -
      (product : ℚ)| ≤
    5000

/--
The remainder of the product is between half of a step and half of a step in
kHz, rounded up; there the two decisions differ.
-/
def Straddles (step product : Nat) : Prop :=
  (step / 2 ≤ product % step ∧ product % step < 1000 * ((step / 1000 + 1) / 2)) ∨
    (1000 * ((step / 1000 + 1) / 2) ≤ product % step ∧ product % step < step / 2)

instance (step product : Nat) : Decidable (Straddles step product) :=
  inferInstanceAs (Decidable (_ ∨ _))

/-! ## The fraction -/

/-- The remainder in 1/32768 of a step, both in kHz. -/
def rawFraction (step product : Nat) : Nat :=
  product % step / 1000 * 32768 / (step / 1000)

section Fraction

variable {step product : Nat}

/-- The fraction is a whole step at most. -/
theorem rawFraction_le
    (fast : 1000 ≤ step) :
    rawFraction step product ≤ 32768 := by
  have rest : product % step < step :=
    Nat.mod_lt _ (by omega)
  have khz : product % step / 1000 ≤ step / 1000 :=
    Nat.div_le_div_right rest.le
  unfold rawFraction
  apply Nat.div_le_of_le_mul
  exact Nat.mul_le_mul_right 32768 khz

/-- The fraction is half a step or more, if the remainder in kHz is. -/
theorem half_le_rawFraction_iff
    (fast : 1000 ≤ step) :
    16384 ≤ rawFraction step product ↔
      1000 * ((step / 1000 + 1) / 2) ≤ product % step := by
  have positive : 0 < step / 1000 :=
    Nat.div_pos fast (by decide)
  unfold rawFraction
  rw [Nat.le_div_iff_mul_le positive]
  omega

/-- From half a step on, 32768 is added, which makes the value negative. -/
theorem toInt_of_negative
    {xin : UInt16}
    (negative : 16384 ≤ xin.toNat)
    (bound : xin.toNat ≤ 32768) :
    (xin + 32768).toBitVec.toInt = (xin.toNat : Int) - 32768 := by
  have sum : (xin + 32768).toBitVec.toNat = (xin.toNat + 32768) % 65536 :=
    UInt16.toNat_add _ _
  rw [BitVec.toInt_eq_toNat_cond, sum]
  split <;>
    omega

theorem toInt_of_positive
    {xin : UInt16}
    (positive : xin.toNat < 32768) :
    xin.toBitVec.toInt = (xin.toNat : Int) - 0 := by
  have value : xin.toBitVec.toNat = xin.toNat :=
    rfl
  rw [BitVec.toInt_eq_toNat_cond, value, if_pos (by omega), Int.sub_zero]

/-- The fraction that is written, with its sign. -/
theorem xinFor_toInt
    {fVco : UInt64}
    {xtalFreqDiv2 : UInt32}
    (fast : 1000 ≤ xtalFreqDiv2.toNat)
    (slow : xtalFreqDiv2.toNat < 2 ^ 25) :
    (xinFor fVco xtalFreqDiv2).toBitVec.toInt =
      (rawFraction xtalFreqDiv2.toNat fVco.toNat : Int) -
        if 16384 ≤ rawFraction xtalFreqDiv2.toNat fVco.toNat then 32768 else 0 := by
  have bound := @rawFraction_le _ fVco.toNat fast
  have rest : fVco.toNat % xtalFreqDiv2.toNat < xtalFreqDiv2.toNat :=
    Nat.mod_lt _ (by omega)
  have remainder :
      (fVco - fVco / xtalFreqDiv2.toUInt64 * xtalFreqDiv2.toUInt64).toNat =
        fVco.toNat % xtalFreqDiv2.toNat := by
    have whole :
        (fVco / xtalFreqDiv2.toUInt64 * xtalFreqDiv2.toUInt64).toNat =
          fVco.toNat / xtalFreqDiv2.toNat * xtalFreqDiv2.toNat := by
      rw [UInt64.toNat_mul, UInt64.toNat_div, UInt32.toNat_toUInt64]
      exact Nat.mod_eq_of_lt
        ((Nat.div_mul_le_self _ _).trans_lt fVco.toNat_lt)
    have below : fVco / xtalFreqDiv2.toUInt64 * xtalFreqDiv2.toUInt64 ≤ fVco := by
      rw [UInt64.le_iff_toNat_le, whole]
      exact Nat.div_mul_le_self _ _
    rw [UInt64.toNat_sub_of_le _ _ below, whole, Nat.mod_eq_sub_div_mul]
  have khz :
      ((fVco - fVco / xtalFreqDiv2.toUInt64 * xtalFreqDiv2.toUInt64) /
          1000).toUInt16.toUInt32.toNat =
        fVco.toNat % xtalFreqDiv2.toNat / 1000 := by
    rw [UInt16.toNat_toUInt32, UInt64.toNat_toUInt16, UInt64.toNat_div, remainder]
    exact Nat.mod_eq_of_lt (by
      change _ / 1000 < 2 ^ 16
      omega)
  have scaled :
      fVco.toNat % xtalFreqDiv2.toNat / 1000 * 32768 < 2 ^ 32 := by
    omega
  have raw :
      ((((fVco - fVco / xtalFreqDiv2.toUInt64 * xtalFreqDiv2.toUInt64) /
            1000).toUInt16.toUInt32 <<< 15) / (xtalFreqDiv2 / 1000)).toUInt16.toNat =
        rawFraction xtalFreqDiv2.toNat fVco.toNat := by
    have shifted :
        (((fVco - fVco / xtalFreqDiv2.toUInt64 * xtalFreqDiv2.toUInt64) /
              1000).toUInt16.toUInt32 <<< 15).toNat =
          fVco.toNat % xtalFreqDiv2.toNat / 1000 * 32768 := by
      rw [UInt32.toNat_shiftLeft, khz, Nat.shiftLeft_eq]
      exact Nat.mod_eq_of_lt scaled
    rw [UInt32.toNat_toUInt16, UInt32.toNat_div, UInt32.toNat_div, shifted]
    exact Nat.mod_eq_of_lt (bound.trans_lt (by decide))
  unfold xinFor
  dsimp only
  generalize ((((fVco - fVco / xtalFreqDiv2.toUInt64 * xtalFreqDiv2.toUInt64) /
    1000).toUInt16.toUInt32 <<< 15) / (xtalFreqDiv2 / 1000)).toUInt16 = xin at raw
  rw [← raw] at bound ⊢
  have decided : 16384 ≤ xin ↔ 16384 ≤ xin.toNat :=
    UInt16.le_iff_toNat_le
  by_cases negative : 16384 ≤ xin.toNat
  · rw [if_pos negative, if_pos (decided.mpr negative)]
    exact toInt_of_negative negative bound
  · rw [if_neg negative, if_neg (mt decided.mp negative)]
    exact toInt_of_positive (by omega)

/-- The fraction of a step in 1/32768 Hz is the remainder, to 1440 Hz. -/
theorem rawFraction_close
    (fast : 1000 ≤ step)
    (slow : step < 14415000) :
    32768 * (product % step : Nat) - 32768 * 1440 ≤
        (step : Int) * rawFraction step product ∧
      (step : Int) * rawFraction step product ≤
        32768 * (product % step : Nat) + 32768 * 1440 := by
  have bound := @rawFraction_le _ product fast
  have positive : 0 < step / 1000 :=
    Nat.div_pos fast (by decide)
  have below :
      step / 1000 * rawFraction step product ≤ product % step / 1000 * 32768 :=
    Nat.mul_div_le _ _
  have above :
      product % step / 1000 * 32768 <
        step / 1000 * rawFraction step product + step / 1000 := by
    rw [← Nat.mul_add_one]
    exact Nat.lt_mul_div_succ _ positive
  have split :
      step * rawFraction step product =
        1000 * (step / 1000 * rawFraction step product) +
          step % 1000 * rawFraction step product := by
    rw [← Nat.mul_assoc, ← Nat.add_mul, Nat.div_add_mod]
  have small : step % 1000 * rawFraction step product ≤ 999 * 32768 :=
    Nat.mul_le_mul (by omega) bound
  have value :
      (step : Int) * rawFraction step product =
        (step * rawFraction step product : Nat) :=
    (Nat.cast_mul _ _).symm
  rw [value, split]
  generalize step / 1000 * rawFraction step product = whole at *
  omega

end Fraction

/-! ## Both parts together -/

section Parts

variable {clock freq : UInt32} {divider : Divider} {registers : UInt8 → UInt8}

/-- The signed value of two bytes that hold a word. -/
theorem toInt_of_halves
    (xin : UInt16) :
    ((xin >>> 8).toUInt8.toBitVec ++ (xin &&& 0xff).toUInt8.toBitVec).toInt =
      xin.toBitVec.toInt := by
  have whole :
      (xin >>> 8).toUInt8.toBitVec ++ (xin &&& 0xff).toUInt8.toBitVec =
        xin.toBitVec := by
    apply BitVec.eq_of_toNat_eq
    rw [BitVec.toNat_append]
    change (xin >>> 8).toUInt8.toNat <<< 8 ||| (xin &&& 0xff).toUInt8.toNat = xin.toNat
    rw [toNat_highByte, toNat_lowByte,
      ← Nat.shiftLeft_add_eq_or_of_lt (Nat.mod_lt _ (by decide))]
    omega
  rw [whole]

theorem Programmed.signedFraction_eq
    (programmed : Programmed clock freq divider registers) :
    signedFraction registers =
      (xinFor (fVco freq divider.multi) (clock / 2)).toBitVec.toInt := by
  unfold signedFraction
  rw [programmed.reg3, programmed.reg4]
  exact toInt_of_halves _

theorem Programmed.wholeSteps_eq
    (programmed : Programmed clock freq divider registers)
    (range :
      90 ≤ (xdivFor (fVco freq divider.multi) (clock / 2)).toNat ∧
        (xdivFor (fVco freq divider.multi) (clock / 2)).toNat ≤ 263) :
    wholeSteps registers =
      (xdivFor (fVco freq divider.multi) (clock / 2)).toNat := by
  unfold wholeSteps
  rw [programmed.reg1, programmed.reg2]
  exact (cycles_counters range).split

end Parts

/-- The error in 1/32768 Hz. -/
def scaledError (step product : Nat) (count fraction : Int) : Int :=
  step * (32768 * count + fraction) - 32768 * product

theorem synthesizes_iff_scaledError
    {clock : UInt32}
    {product : Nat}
    {registers : UInt8 → UInt8} :
    Synthesizes clock product registers ↔
      (scaledError (clock.toNat / 2) product (wholeSteps registers)
        (signedFraction registers)).natAbs ≤ 163840000 := by
  unfold Synthesizes scaledError
  generalize clock.toNat / 2 = step
  have scaled :
      (step : ℚ) *
            ((wholeSteps registers : ℚ) + (signedFraction registers : ℚ) / 32768) -
          (product : ℚ) =
        ((step * (32768 * wholeSteps registers + signedFraction registers) -
            32768 * product : Int) : ℚ) / 32768 := by
    push_cast
    field_simp
  rw [scaled, abs_le, le_div_iff₀ (by norm_num), div_le_iff₀ (by norm_num)]
  norm_num
  norm_cast
  omega

/--
The error is small exactly if the whole steps are rounded up and the fraction is
negative, or neither.
-/
theorem scaledError_small_iff
    {step product : Nat}
    (fast : 14385600 ≤ step)
    (slow : step < 14415000) :
    (scaledError step product (roundHalf step product)
        ((rawFraction step product : Int) -
          if 16384 ≤ rawFraction step product then 32768 else 0)).natAbs ≤
        163840000 ↔
      ¬ Straddles step product := by
  obtain ⟨below, above⟩ :=
    @rawFraction_close step product (by omega) slow
  have negative := @half_le_rawFraction_iff step product (by omega)
  have whole : (step : Int) * (product / step : Nat) + (product % step : Nat) = product := by
    exact_mod_cast Nat.div_add_mod product step
  have error :
      ∀ up down : Int,
        scaledError step product ((product / step : Nat) + up)
            ((rawFraction step product : Int) - down) =
          (step : Int) * rawFraction step product - 32768 * (product % step : Nat) +
            (32768 * (step * up) - step * down) := by
    intro up down
    unfold scaledError
    rw [← whole]
    ring
  have counted :
      (roundHalf step product : Int) =
        (product / step : Nat) +
          if step / 2 ≤ product % step then 1 else 0 := by
    unfold roundHalf
    split <;>
      rfl
  rw [counted, error]
  unfold Straddles
  rw [← Nat.not_le, ← Nat.not_le, ← negative]
  split <;> split <;>
    omega

/--
Near 28.8 MHz, what is programmed makes the product exactly if the two decisions
do not differ.
-/
theorem Programmed.synthesizes_iff
    {clock freq : UInt32}
    {divider : Divider}
    {registers : UInt8 → UInt8}
    (programmed : Programmed clock freq divider registers)
    (near : 28771200 ≤ clock.toNat ∧ clock.toNat ≤ 28828800)
    (fits : freq.toNat * divider.multi.toNat < 2 ^ 32)
    (large : 1800000000 ≤ freq.toNat * divider.multi.toNat)
    (passes : Passes (xdivFor (fVco freq divider.multi) (clock / 2))) :
    Synthesizes clock (freq.toNat * divider.multi.toNat) registers ↔
      ¬ Straddles (clock.toNat / 2) (freq.toNat * divider.multi.toNat) := by
  have half : (clock / 2).toNat = clock.toNat / 2 :=
    UInt32.toNat_div _ _
  have product : (fVco freq divider.multi).toNat = freq.toNat * divider.multi.toNat := by
    rw [fVco_toNat, Nat.mod_eq_of_lt fits]
  have count := @xdivFor_toNat (clock / 2) (fVco freq divider.multi) fVco_lt (by omega)
  have fraction :=
    @xinFor_toInt (fVco freq divider.multi) (clock / 2) (by omega) (by omega)
  rw [half, product] at count fraction
  have many : 2 ≤ roundHalf (clock.toNat / 2) (freq.toNat * divider.multi.toNat) := by
    have whole : 2 ≤ freq.toNat * divider.multi.toNat / (clock.toNat / 2) := by
      rw [Nat.le_div_iff_mul_le (by omega)]
      omega
    exact whole.trans (Nat.le_add_right _ _)
  have few : roundHalf (clock.toNat / 2) (freq.toNat * divider.multi.toNat) < 500 := by
    have whole : freq.toNat * divider.multi.toNat / (clock.toNat / 2) < 499 := by
      rw [Nat.div_lt_iff_lt_mul (by omega)]
      omega
    unfold roundHalf
    split <;>
      omega
  have range := (passes_iff (by rwa [count])).mp passes
  rw [count] at range
  rw [synthesizes_iff_scaledError, programmed.signedFraction_eq,
    programmed.wholeSteps_eq (by omega), count, fraction]
  exact scaledError_small_iff (by omega) (by omega)

end FcTuner

/-! ## The two tuners -/

namespace Fc0012

/-- From 30 to 950 MHz the product is large, and fits 32 bits. -/
theorem product_range
    {freq : UInt32}
    (range : 30000000 ≤ freq.toNat ∧ freq.toNat ≤ 950000000) :
    1800000000 ≤ freq.toNat * (divider freq).multi.toNat ∧
      freq.toNat * (divider freq).multi.toNat < 2 ^ 32 := by
  unfold divider
  simp only [UInt32.lt_iff_toNat_lt, UInt32.reduceToNat]
  repeat' split
  all_goals
    simp only [UInt8.reduceToNat]
    omega

end Fc0012

namespace Fc0013

theorem product_range
    {freq : UInt32}
    (range : 30000000 ≤ freq.toNat ∧ freq.toNat ≤ 950000000) :
    1800000000 ≤ freq.toNat * (divider freq).multi.toNat ∧
      freq.toNat * (divider freq).multi.toNat < 2 ^ 32 := by
  unfold divider
  simp only [UInt32.lt_iff_toNat_lt, UInt32.reduceToNat]
  repeat' split
  all_goals
    simp only [UInt8.reduceToNat]
    omega

end Fc0013

namespace FcTuner

/-- The clock of a crystal of 28.8 MHz with a correction. -/
def CorrectedBy (ppm : Int) (clock : UInt32) : Prop :=
  (clock.toNat : Int) = 28800000 * (1000000 + ppm) / 1000000

instance (ppm : Int) (clock : UInt32) : Decidable (CorrectedBy ppm clock) :=
  inferInstanceAs (Decidable (_ = _))

/-- What a tuner programs when it accepts a frequency. -/
theorem Programs.synthesizes_iff
    {setParams : UInt32 → UInt32 → UInt32 → Checked Chip Unit}
    {divider : UInt32 → Divider}
    (programs : Programs setParams divider)
    {clock freq bandwidth : UInt32}
    {ppm : Int}
    {before after : Chip}
    (small : -1000 ≤ ppm ∧ ppm ≤ 1000)
    (corrected : CorrectedBy ppm clock)
    (product :
      1800000000 ≤ freq.toNat * (divider freq).multi.toNat ∧
        freq.toNat * (divider freq).multi.toNat < 2 ^ 32)
    (answering : before.Answering)
    (accepted : Yields (setParams clock freq bandwidth).run before (.ok ()) after) :
    Synthesizes clock (freq.toNat * (divider freq).multi.toNat) after.registers ↔
      ¬ Straddles (clock.toNat / 2) (freq.toNat * (divider freq).multi.toNat) := by
  unfold CorrectedBy at corrected
  have fast : 2000 ≤ clock :=
    UInt32.le_iff_toNat_le.mpr (by
      change 2000 ≤ clock.toNat
      omega)
  have passes : Passes (xdivFor (fVco freq (divider freq).multi) (clock / 2)) := by
    by_contra refused
    obtain ⟨answer, _⟩ :=
      (programs.refuses bandwidth answering fast refused).of_yields accepted
    cases answer
  obtain ⟨_, programmed⟩ :=
    (programs.accepts bandwidth answering fast passes).of_yields accepted
  exact programmed.synthesizes_iff (by omega) product.2 product.1 passes

/--
With a tuner clock of 28.8 MHz that is corrected by up to 1000 ppm, and from 30 to
950 MHz: both parts together make the product, to 5 kHz, exactly if the two
decisions on the remainder of the product do not differ.
-/
theorem setParams_synthesizes_iff
    {clock freq bandwidth : UInt32}
    {ppm : Int}
    {before after : Chip}
    (small : -1000 ≤ ppm ∧ ppm ≤ 1000)
    (corrected : CorrectedBy ppm clock)
    (range : 30000000 ≤ freq.toNat ∧ freq.toNat ≤ 950000000)
    (answering : before.Answering) :
    (Yields (Fc0012.setParams clock freq bandwidth).run before (.ok ()) after →
      (Synthesizes clock (freq.toNat * (Fc0012.divider freq).multi.toNat)
          after.registers ↔
        ¬ Straddles (clock.toNat / 2)
          (freq.toNat * (Fc0012.divider freq).multi.toNat))) ∧
    (Yields (Fc0013.setParams clock freq bandwidth).run before (.ok ()) after →
      (Synthesizes clock (freq.toNat * (Fc0013.divider freq).multi.toNat)
          after.registers ↔
        ¬ Straddles (clock.toNat / 2)
          (freq.toNat * (Fc0013.divider freq).multi.toNat))) :=
  ⟨Fc0012.setParams_programs.synthesizes_iff small corrected
      (Fc0012.product_range range) answering,
    Fc0013.setParams_programs.synthesizes_iff small corrected
      (Fc0013.product_range range) answering⟩

/-- Both tuners make 100 MHz, without a correction. -/
theorem setParams_synthesizes_iff_uncorrected :
    (∃ after,
      Yields (Fc0012.setParams 28800000 100000000 8000000).run Chip.cleared (.ok ())
          after ∧
        Synthesizes 28800000 (100000000 * 32) after.registers) ∧
    ∃ after,
      Yields (Fc0013.setParams 28800000 100000000 8000000).run Chip.cleared (.ok ())
          after ∧
        Synthesizes 28800000 (100000000 * 32) after.registers := by
  obtain ⟨first, accepted0012, _⟩ :=
    @Programs.accepts _ _ Fc0012.setParams_programs 28800000 100000000 8000000 _
      Chip.cleared_answering (by decide) (by decide)
  obtain ⟨second, accepted0013, _⟩ :=
    @Programs.accepts _ _ Fc0013.setParams_programs 28800000 100000000 8000000 _
      Chip.cleared_answering (by decide) (by decide)
  have uncorrected : CorrectedBy 0 28800000 := by
    decide
  have apart : ¬ Straddles (28800000 / 2) (100000000 * 32) := by
    decide
  exact
    ⟨⟨first, accepted0012,
        ((@setParams_synthesizes_iff 28800000 100000000 8000000 0 _ first (by decide)
          uncorrected (by decide) Chip.cleared_answering).1 accepted0012).mpr apart⟩,
      ⟨second, accepted0013,
        ((@setParams_synthesizes_iff 28800000 100000000 8000000 0 _ second (by decide)
          uncorrected (by decide) Chip.cleared_answering).2 accepted0013).mpr apart⟩⟩

/--
With a correction of 100 ppm both tuners accept 100135013 Hz, and are off by a
step.
-/
theorem setParams_not_synthesizes :
    CorrectedBy 100 28802880 ∧
      (∃ after,
        Yields (Fc0012.setParams 28802880 100135013 8000000).run Chip.cleared
            (.ok ()) after ∧
          ¬ Synthesizes 28802880 (100135013 * 32) after.registers) ∧
      ∃ after,
        Yields (Fc0013.setParams 28802880 100135013 8000000).run Chip.cleared
            (.ok ()) after ∧
          ¬ Synthesizes 28802880 (100135013 * 32) after.registers := by
  have corrected : CorrectedBy 100 28802880 := by
    decide
  have straddles : Straddles (28802880 / 2) (100135013 * 32) := by
    decide
  obtain ⟨first, accepted0012, _⟩ :=
    @Programs.accepts _ _ Fc0012.setParams_programs 28802880 100135013 8000000 _
      Chip.cleared_answering (by decide) (by decide)
  obtain ⟨second, accepted0013, _⟩ :=
    @Programs.accepts _ _ Fc0013.setParams_programs 28802880 100135013 8000000 _
      Chip.cleared_answering (by decide) (by decide)
  refine ⟨corrected, ⟨first, accepted0012, fun made => ?_⟩,
    ⟨second, accepted0013, fun made => ?_⟩⟩
  · exact (Fc0012.setParams_programs.synthesizes_iff (by decide) corrected (by decide)
      Chip.cleared_answering accepted0012).mp made straddles
  · exact (Fc0013.setParams_programs.synthesizes_iff (by decide) corrected (by decide)
      Chip.cleared_answering accepted0013).mp made straddles

end FcTuner

end LibRtlSdr
