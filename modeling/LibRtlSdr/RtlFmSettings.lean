import LibRtlSdr.CheckedInt
import LibRtlSdr.RtlSdrR82xx
import Mathlib.Tactic.Ring

namespace LibRtlSdr.RtlFm

/-!
# The rates of `rtl_fm`: `optimal_settings`

The demodulation rate is oversampled to more than 1 MHz.  Without `-F` the factor is
the quotient plus one; with `-F` it is rounded up to a power of two, one half-band
pass for each doubling.  The factor has to stay within 256, the passes within the
ten histories and the table of ten filters, and the capture rate has to be one that
`rtlsdr_set_sample_rate` takes.
-/

open CheckedInt (div?)
open RtlSdr (SupportedRate)

/--
What `optimal_settings` uses of `struct demod_state`, `struct dongle_state` and
`struct controller_state`; `fmDemod` stands for `mode_demod == &fm_demod`.
-/
structure Settings where
  rateIn : Int
  downsamplePasses : Int
  downsample : Int
  outputScale : Int
  fmDemod : Bool
  offsetTuning : Bool
  edge : Int
  freq : UInt32
  rate : UInt32
deriving DecidableEq

/-- `optimal_settings`; `log2` is exact and the cast cuts its fraction off. -/
def optimalSettings (freq : Int) (s : Settings) : Option Settings := do
  let quotient ← div? 1000000 s.rateIn
  let passes :=
    if s.downsamplePasses ≠ 0 then
      ((quotient + 1).toNat.log2 : Int) + 1
    else
      s.downsamplePasses
  let downsample :=
    if s.downsamplePasses ≠ 0 then 2 ^ passes.toNat else quotient + 1
  let captureRate := downsample * s.rateIn
  let tuned := if s.offsetTuning then freq else freq + captureRate.tdiv 4
  let captureFreq := tuned + (s.edge * s.rateIn).tdiv 2
  let scale ← div? (2 ^ 15) (128 * downsample)
  return {
    s with
    downsamplePasses := passes
    downsample := downsample
    outputScale := if scale < 1 ∨ s.fmDemod then 1 else scale
    freq := UInt32.ofInt captureFreq
    rate := UInt32.ofInt captureRate
  }

/-! ## The plan -/

/-- The factor that is planned for a rate, with `-F` or without. -/
def plannedFactor (firstPasses : Int) (rate : Nat) : Nat :=
  if firstPasses ≠ 0 then
    2 ^ ((1000000 / rate + 1).log2 + 1)
  else
    1000000 / rate + 1

/-- The number of passes that is planned. -/
def plannedPasses (firstPasses : Int) (rate : Nat) : Int :=
  if firstPasses ≠ 0 then
    ((1000000 / rate + 1).log2 : Int) + 1
  else
    firstPasses

/-- The demands on the settings that are planned from `s`. -/
structure WellPlanned (s planned : Settings) : Prop where
  downsample : 1 ≤ planned.downsample ∧ planned.downsample ≤ 256
  passes :
    s.downsamplePasses ≠ 0 →
      (1 ≤ planned.downsamplePasses ∧ planned.downsamplePasses ≤ 10) ∧
        planned.downsample = 2 ^ planned.downsamplePasses.toNat
  capture : (planned.rate.toNat : Int) = planned.downsample * s.rateIn
  accepted : SupportedRate planned.rate

/-- The rates for which the plan meets the demands. -/
def Plannable (firstPasses rateIn : Int) : Prop :=
  if firstPasses = 0 then
    3907 ≤ rateIn
  else
    (3922 ≤ rateIn ∧ rateIn ≤ 800000) ∨ (1000001 ≤ rateIn ∧ rateIn ≤ 1600000)

instance (firstPasses rateIn : Int) : Decidable (Plannable firstPasses rateIn) :=
  inferInstanceAs (Decidable (ite _ _ _))

/-- The factor with `-F` is a power of two above the quotient plus one. -/
theorem factor_bounds
    (quotient : Nat) :
    quotient + 2 ≤ 2 ^ ((quotient + 1).log2 + 1) ∧
      2 ^ ((quotient + 1).log2 + 1) ≤ 2 * (quotient + 1) := by
  have below := Nat.log2_self_le (Nat.succ_ne_zero quotient)
  have above := @Nat.lt_log2_self (quotient + 1)
  constructor
  · exact above
  · rw [Nat.pow_succ]
    change 2 ^ (quotient + 1).log2 ≤ quotient + 1 at below
    omega

/-- The factor oversamples to more than 1 MHz, and not much more than needed. -/
theorem plannedFactor_bounds
    (firstPasses : Int)
    {rate : Nat}
    (positive : 0 < rate) :
    1000000 < plannedFactor firstPasses rate * rate ∧
      plannedFactor firstPasses rate * rate ≤ 2 * (1000000 + rate) := by
  have below : 1000000 / rate * rate ≤ 1000000 :=
    Nat.div_mul_le_self _ _
  have above : 1000000 < (1000000 / rate + 1) * rate := by
    rw [Nat.mul_comm]
    exact Nat.lt_mul_div_succ _ positive
  have expanded : (1000000 / rate + 1) * rate = 1000000 / rate * rate + rate := by
    ring
  unfold plannedFactor
  split
  · have bounds := factor_bounds (1000000 / rate)
    constructor
    · calc
        1000000 < (1000000 / rate + 1) * rate := above
        _ ≤ 2 ^ ((1000000 / rate + 1).log2 + 1) * rate :=
          Nat.mul_le_mul_right _ (by omega)
    · calc
        2 ^ ((1000000 / rate + 1).log2 + 1) * rate
            ≤ 2 * (1000000 / rate + 1) * rate :=
          Nat.mul_le_mul_right _ bounds.2
        _ = 2 * ((1000000 / rate + 1) * rate) := Nat.mul_assoc _ _ _
        _ ≤ 2 * (1000000 + rate) := by omega
  · omega

/-- `optimal_settings` divides by no zero; what it plans. -/
theorem optimalSettings_planned
    (freq : Int)
    {s : Settings}
    {rate : Nat}
    (isRate : s.rateIn = rate)
    (positive : 0 < rate) :
    ∃ planned,
      optimalSettings freq s = some planned ∧
        planned.downsamplePasses = plannedPasses s.downsamplePasses rate ∧
        planned.downsample = plannedFactor s.downsamplePasses rate ∧
        planned.rate =
          UInt32.ofInt ((plannedFactor s.downsamplePasses rate : Int) * rate) := by
  have quotient : div? 1000000 s.rateIn = some ((1000000 / rate : Nat) : Int) := by
    rw [isRate, CheckedInt.div?_of_pos (by decide) (by omega),
      Int.tdiv_eq_ediv_of_nonneg (by decide)]
    rfl
  have bounds := plannedFactor_bounds s.downsamplePasses positive
  have factorPositive : 0 < plannedFactor s.downsamplePasses rate :=
    Nat.pos_of_mul_pos_right (show 0 < _ * rate by omega)
  have scale :
      div? (2 ^ 15) (128 * (plannedFactor s.downsamplePasses rate : Int)) =
        some ((2 ^ 15 : Int).tdiv
          (128 * (plannedFactor s.downsamplePasses rate : Int))) :=
    CheckedInt.div?_of_pos (by decide) (by omega)
  have passes :
      (if s.downsamplePasses ≠ 0 then
        ((((1000000 / rate : Nat) : Int) + 1).toNat.log2 : Int) + 1
      else
        s.downsamplePasses) = plannedPasses s.downsamplePasses rate :=
    rfl
  have factor :
      (if s.downsamplePasses ≠ 0 then
        (2 : Int) ^ (plannedPasses s.downsamplePasses rate).toNat
      else
        ((1000000 / rate : Nat) : Int) + 1) =
      plannedFactor s.downsamplePasses rate := by
    unfold plannedFactor plannedPasses
    by_cases first : s.downsamplePasses ≠ 0
    · simp only [if_pos first]
      rw [show (((1000000 / rate + 1).log2 : Int) + 1).toNat =
        (1000000 / rate + 1).log2 + 1 from by omega]
      norm_cast
    · simp only [if_neg first]
      norm_cast
  unfold optimalSettings
  rw [quotient]
  simp only [Option.bind_eq_bind, Option.bind_some, passes, factor, scale]
  refine ⟨_, rfl, rfl, rfl, ?_⟩
  rw [isRate]

/-- When the factor stays within 256. -/
theorem plannedFactor_le_iff
    (firstPasses : Int)
    {rate : Nat}
    (positive : 0 < rate) :
    plannedFactor firstPasses rate ≤ 256 ↔
      (if firstPasses = 0 then 3907 else 3922) ≤ rate := by
  have quotient : ∀ count, 1000000 / rate < count ↔ 1000000 < count * rate :=
    fun count => Nat.div_lt_iff_lt_mul positive
  unfold plannedFactor
  by_cases first : firstPasses = 0
  · rw [if_neg (not_not.mpr first), if_pos first]
    have within := quotient 256
    omega
  · rw [if_pos first, if_neg first]
    have within := quotient 255
    have power : 2 ^ ((1000000 / rate + 1).log2 + 1) ≤ 2 ^ 8 ↔
        (1000000 / rate + 1).log2 < 8 :=
      Nat.pow_le_pow_iff_right (by decide)
    rw [Nat.log2_lt (Nat.succ_ne_zero _)] at power
    omega

/-- When the capture rate is one that the library takes. -/
theorem capture_supported_iff
    (firstPasses : Int)
    {rate : Nat}
    (least : 3907 ≤ rate)
    (most : rate ≤ 3200000) :
    plannedFactor firstPasses rate * rate ≤ 3200000 ↔
      firstPasses = 0 ∨ rate ≤ 800000 ∨ (1000001 ≤ rate ∧ rate ≤ 1600000) := by
  have bounds := plannedFactor_bounds firstPasses (by omega : 0 < rate)
  have quotient : ∀ count, 1000000 / rate < count ↔ 1000000 < count * rate :=
    fun count => Nat.div_lt_iff_lt_mul (by omega)
  have twice := quotient 2
  have once := quotient 1
  rcases Nat.lt_or_ge 600000 rate with large | small
  · unfold plannedFactor
    by_cases above : 1000000 < rate
    · have isZero : 1000000 / rate = 0 := by
        apply Nat.eq_zero_of_not_pos
        omega
      rw [isZero, show Nat.log2 (0 + 1) = 0 from by decide]
      by_cases first : firstPasses = 0
      · simp [first]
        omega
      · simp [first]
        omega
    · have isOne : 1000000 / rate = 1 := by
        apply Nat.le_antisymm
        · exact Nat.le_of_lt_succ (twice.mpr (by omega))
        · exact Nat.not_lt.mp (fun below => by omega)
      rw [isOne, show Nat.log2 (1 + 1) = 1 from by decide]
      by_cases first : firstPasses = 0
      · simp [first]
        omega
      · simp [first]
        omega
  · omega

/-- The passes number at most eight when the factor stays within 256. -/
theorem plannedPasses_bounds
    {firstPasses : Int}
    (first : firstPasses ≠ 0)
    {rate : Nat}
    (within : plannedFactor firstPasses rate ≤ 256) :
    (1 ≤ plannedPasses firstPasses rate ∧ plannedPasses firstPasses rate ≤ 8) ∧
      (plannedFactor firstPasses rate : Int) =
        2 ^ (plannedPasses firstPasses rate).toNat := by
  unfold plannedFactor at *
  unfold plannedPasses
  rw [if_pos first] at within
  simp only [if_pos first]
  have few : (1000000 / rate + 1).log2 + 1 ≤ 8 :=
    (Nat.pow_le_pow_iff_right (by decide)).mp within
  rw [show (((1000000 / rate + 1).log2 : Int) + 1).toNat =
    (1000000 / rate + 1).log2 + 1 from by omega]
  refine ⟨by omega, ?_⟩
  norm_cast

/--
For every rate up to 3.2 MHz the settings are planned without a division by zero,
and the plan meets its demands exactly for these rates.
-/
theorem optimalSettings_iff
    (freq : Int)
    {s : Settings}
    (least : 1 ≤ s.rateIn)
    (most : s.rateIn ≤ 3200000) :
    ∃ planned,
      optimalSettings freq s = some planned ∧
        (WellPlanned s planned ↔ Plannable s.downsamplePasses s.rateIn) := by
  obtain ⟨rate, isRate⟩ := Int.eq_ofNat_of_zero_le (by omega : 0 ≤ s.rateIn)
  rw [isRate] at least most
  have positive : 0 < rate := by omega
  obtain ⟨planned, done, passes, factor, isCapture⟩ :=
    optimalSettings_planned freq isRate positive
  refine ⟨planned, done, ?_⟩
  have bounds := plannedFactor_bounds s.downsamplePasses positive
  have capture :
      planned.rate.toNat = plannedFactor s.downsamplePasses rate * rate := by
    rw [isCapture, ← Int.natCast_mul]
    simp only [UInt32.ofInt, UInt32.toNat_ofNat']
    omega
  have within := plannedFactor_le_iff s.downsamplePasses positive
  have supported :
      SupportedRate planned.rate ↔ planned.rate.toNat ≤ 3200000 := by
    unfold SupportedRate
    simp only [UInt32.le_iff_toNat_le, UInt32.lt_iff_toNat_lt, UInt32.reduceToNat]
    omega
  have rates :
      Plannable s.downsamplePasses s.rateIn ↔
        plannedFactor s.downsamplePasses rate ≤ 256 ∧
          plannedFactor s.downsamplePasses rate * rate ≤ 3200000 := by
    unfold Plannable
    rw [isRate]
    by_cases above : 3907 ≤ rate
    · rw [within, capture_supported_iff s.downsamplePasses above (by omega)]
      split <;> omega
    · rw [within]
      split <;> omega
  rw [rates]
  constructor
  · intro wellPlanned
    have small := wellPlanned.downsample.2
    have accepted := supported.mp wellPlanned.accepted
    rw [factor] at small
    rw [capture] at accepted
    exact ⟨by omega, accepted⟩
  · rintro ⟨small, accepted⟩
    have positiveFactor :=
      Nat.pos_of_mul_pos_right (show 0 < plannedFactor s.downsamplePasses rate * rate by omega)
    refine ⟨by omega, ?_, ?_, supported.mpr (by omega)⟩
    · intro first
      have passesBounds := plannedPasses_bounds first small
      rw [passes, factor]
      exact ⟨by omega, passesBounds.2⟩
    · rw [capture, factor, isRate, Int.natCast_mul]

/-- The settings of `main` before the first tuning, with a rate and with `-F` or not. -/
def initialSettings (rateIn downsamplePasses : Int) : Settings where
  rateIn := rateIn
  downsamplePasses := downsamplePasses
  downsample := 0
  outputScale := 0
  fmDemod := true
  offsetTuning := false
  edge := 0
  freq := 0
  rate := 24000

/-- The default rate. -/
theorem optimalSettings_default :
    ∃ planned,
      optimalSettings 100000000 (initialSettings 24000 0) = some planned ∧
        (WellPlanned (initialSettings 24000 0) planned ↔ Plannable 0 24000) :=
  optimalSettings_iff 100000000 (by decide) (by decide)

/--
At 3906 Hz the factor is 257; at 1 MHz with `-F` it is 4, and 4 MHz is refused.
-/
theorem optimalSettings_not_wellPlanned :
    (¬ ∃ planned,
      optimalSettings 100000000 (initialSettings 3906 0) = some planned ∧
        WellPlanned (initialSettings 3906 0) planned) ∧
      ¬ ∃ planned,
        optimalSettings 100000000 (initialSettings 1000000 1) = some planned ∧
          WellPlanned (initialSettings 1000000 1) planned := by
  constructor
  · rintro ⟨planned, done, wellPlanned⟩
    have factor :
        (optimalSettings 100000000 (initialSettings 3906 0)).map
          Settings.downsample = some 257 := by
      decide
    rw [done, Option.map_some, Option.some.injEq] at factor
    have most := wellPlanned.downsample.2
    omega
  · rintro ⟨planned, done, wellPlanned⟩
    have capture :
        (optimalSettings 100000000 (initialSettings 1000000 1)).map
          Settings.rate = some 4000000 := by
      decide
    rw [done, Option.map_some, Option.some.injEq] at capture
    have accepted := wellPlanned.accepted
    rw [capture] at accepted
    revert accepted
    decide

end LibRtlSdr.RtlFm
