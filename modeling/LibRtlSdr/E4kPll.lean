import LibRtlSdr.E4kFilters
import Mathlib.Algebra.Order.Field.Rat
import Mathlib.Algebra.Order.Group.Abs
import Mathlib.Data.Nat.Cast.Order.Field
import Mathlib.Tactic.FieldSimp
import Mathlib.Tactic.Linarith
import Mathlib.Tactic.Ring

namespace LibRtlSdr.E4k

open DriverProgram ByteChip

/-!
# The PLL of the E4000

The VCO runs at a multiple of the clock, with a whole part of 8 bits and a fraction
of 16.  The check of the whole part is not called, and the error of the last
division is returned through an unsigned type.
-/

/-! ## The driver -/

/-- `MHZ`. -/
def mHz (x : UInt32) : UInt32 :=
  x * 1000 * 1000

/-- `struct pll_settings`. -/
structure PllSettings where
  freq : UInt32
  regSynth7 : UInt8
  mult : UInt8

/-- `(threephase << 3) | divider`. -/
def synth7 (threephase divider : UInt8) : UInt8 :=
  threephase <<< 3 ||| divider

/-- `pll_vars`. -/
def pllVars : List PllSettings :=
  [⟨kHz 72400, synth7 1 7, 48⟩,
    ⟨kHz 81200, synth7 1 6, 40⟩,
    ⟨kHz 108300, synth7 1 5, 32⟩,
    ⟨kHz 162500, synth7 1 4, 24⟩,
    ⟨kHz 216600, synth7 1 3, 16⟩,
    ⟨kHz 325000, synth7 1 2, 12⟩,
    ⟨kHz 350000, synth7 1 1, 8⟩,
    ⟨kHz 432000, synth7 0 3, 8⟩,
    ⟨kHz 667000, synth7 0 2, 6⟩,
    ⟨kHz 1200000, synth7 0 1, 4⟩]

/-- `is_fosc_valid`. -/
def isFoscValid (fosc : UInt32) : Bool :=
  ¬ (fosc < mHz 16 ∨ mHz 30 < fosc)

/-- `compute_fvco`. -/
def computeFvco (fOsc : UInt32) (z : UInt8) (x : UInt16) : UInt64 :=
  fOsc.toUInt64 * z.toUInt64 + fOsc.toUInt64 * x.toUInt64 / 65536

/-- `compute_flo`; the error is `-EINVAL`. -/
def computeFlo (fOsc : UInt32) (z : UInt8) (x : UInt16) (r : UInt8) : UInt32 :=
  let fvco := computeFvco fOsc z x
  if fvco = 0 then UInt32.ofInt (-22) else (fvco / r.toUInt64).toUInt32

/-- `struct e4k_pll_params`. -/
structure PllParams where
  fosc : UInt32
  intendedFlo : UInt32
  flo : UInt32
  x : UInt16
  z : UInt8
  r : UInt8
  rIdx : UInt8
  threephase : UInt8
  deriving Repr, DecidableEq

/-- The row of `pll_vars` for a frequency: `r_idx` and `r`. -/
def dividerFor (intendedFlo : UInt32) : UInt8 × UInt8 :=
  match pllVars.find? (fun row => intendedFlo < row.freq) with
  | some row => (row.regSynth7, row.mult)
  | none => (0, 2)

/-- `z` before it is cut to a byte. -/
def wholeMultiple (fosc intendedFlo : UInt32) : UInt64 :=
  intendedFlo.toUInt64 * (dividerFor intendedFlo).2.toUInt64 / fosc.toUInt64

/-- `x`. -/
def fraction (fosc intendedFlo : UInt32) : UInt32 :=
  let remainder :=
    intendedFlo.toUInt64 * (dividerFor intendedFlo).2.toUInt64 -
      fosc.toUInt64 * wholeMultiple fosc intendedFlo
  (remainder * 65536 / fosc.toUInt64).toUInt32

/-- `e4k_compute_pll_params`, when the clock is valid. -/
def pllParams (fosc intendedFlo : UInt32) : PllParams :=
  let z := (wholeMultiple fosc intendedFlo).toUInt8
  let x := (fraction fosc intendedFlo).toUInt16
  let (rIdx, r) := dividerFor intendedFlo
  { fosc, intendedFlo, x, z, r, rIdx
    flo := computeFlo fosc z x r
    threephase := if rIdx &&& 0x08 ≠ 0 then 1 else 0 }

/-- What `e4k_compute_pll_params` returns. -/
def computePllParams (fosc intendedFlo : UInt32) : UInt32 :=
  if isFoscValid fosc then (pllParams fosc intendedFlo).flo else 0

/-- `enum e4k_band`. -/
inductive Band where
  | vhf2
  | vhf3
  | uhf
  | l
  deriving Repr, DecidableEq

/-- The number of a band. -/
def Band.code : Band → UInt8
  | .vhf2 => 0
  | .vhf3 => 1
  | .uhf => 2
  | .l => 3

/-- The fields of `struct e4k_state`, and the chip. -/
structure State where
  chip : Chip
  band : Band
  vco : PllParams

/-- A program of the chip, run on the state. -/
def onChip {Value : Type} (program : Program Chip Value) : Program State Value :=
  onPart State.chip (fun chip state => { state with chip }) program

/-- `e4k_band_set`; 0x78 is `E4K_REG_BIAS` and 0x07 `E4K_REG_SYNTH1`. -/
def bandSet (band : Band) : Program State Int := do
  let _ ← onChip (regWrite 0x78 (if band = .l then 0 else 3))
  -- without this there is a gap between 325 and 350 MHz
  let _ ← onChip (regSetMask 0x07 0x06 0)
  let rc ← onChip (regSetMask 0x07 0x06 (band.code <<< 1))
  if 0 ≤ rc then
    modify fun state => { state with band }
  return rc

/-- `rf_filt_center_uhf`. -/
def rfFiltCenterUhf : List UInt32 :=
  [mHz 360, mHz 380, mHz 405, mHz 425, mHz 450, mHz 475, mHz 505, mHz 540,
    mHz 575, mHz 615, mHz 670, mHz 720, mHz 760, mHz 840, mHz 890, mHz 970]

/-- `rf_filt_center_l`. -/
def rfFiltCenterL : List UInt32 :=
  [mHz 1300, mHz 1320, mHz 1360, mHz 1410, mHz 1445, mHz 1460, mHz 1490, mHz 1530,
    mHz 1560, mHz 1590, mHz 1640, mHz 1660, mHz 1680, mHz 1700, mHz 1720, mHz 1750]

/-- `choose_rf_filter`. -/
def chooseRfFilter (band : Band) (freq : UInt32) : Nat :=
  match band with
  | .vhf2 | .vhf3 => 0
  | .uhf => closestArrIdx rfFiltCenterUhf freq
  | .l => closestArrIdx rfFiltCenterL freq

/-- `e4k_rf_filter_set`; 0x10 is `E4K_REG_FILT1`. -/
def rfFilterSet : Program State Int := do
  let state ← get
  onChip (regSetMask 0x10 0x0f
    (UInt8.ofNat (chooseRfFilter state.band state.vco.flo)))

/-- The band for a frequency. -/
def bandFor (flo : UInt32) : Band :=
  if flo < mHz 140 then .vhf2
  else if flo < mHz 350 then .vhf3
  else if flo < mHz 1135 then .uhf
  else .l

/-- The bytes for `SYNTH7`, `SYNTH3`, `SYNTH4` and `SYNTH5`. -/
def synthWrites (p : PllParams) : List (UInt8 × UInt8) :=
  [(0x0d, p.rIdx), (0x09, p.z), (0x0a, (p.x &&& 0xff).toUInt8),
    (0x0b, (p.x >>> 8).toUInt8)]

/-- Registers written in order, whatever the results. -/
def regWrites : List (UInt8 × UInt8) → Program Chip Unit
  | [] => return ()
  | (reg, val) :: rest => do
      let _ ← regWrite reg val
      regWrites rest

/-- `e4k_tune_params`. -/
def tuneParams (p : PllParams) : Program State UInt32 := do
  onChip (regWrites (synthWrites p))
  modify fun state => { state with vco := p }
  let _ ← bandSet (bandFor p.flo)
  let _ ← rfFilterSet
  return p.flo

/-- `e4k_tune_freq`. -/
def tuneFreq (freq : UInt32) : Program State Int := do
  let state ← get
  if computePllParams state.vco.fosc freq = 0 then
    return -22
  else
    let _ ← tuneParams (pllParams state.vco.fosc freq)
    -- check PLL lock
    let rc ← onChip (regRead 0x07)
    if UInt32.ofInt rc &&& 0x01 = 0 then
      return -1
    else
      return 0

/-! ## The claimed frequency -/

/-- The divider of the VCO that a byte of `SYNTH7` selects. -/
def decodedR (byte : UInt8) : Nat :=
  match pllVars.find? (fun row => row.regSynth7 = byte) with
  | some row => row.mult.toNat
  | none => 2

/-- The frequency that the registers make of a clock. -/
def madeFlo (fosc : UInt32) (registers : UInt8 → UInt8) : ℚ :=
  fosc.toNat *
      ((registers 0x09).toNat +
        ((registers 0x0b).toNat * 256 + (registers 0x0a).toNat : Nat) / 65536) /
    decodedR (registers 0x0d)

/-- The registers make a frequency to 300 Hz, and `flo` is what they make, rounded down. -/
def Tuned (fosc intendedFlo flo : UInt32) (registers : UInt8 → UInt8) : Prop :=
  |madeFlo fosc registers - intendedFlo.toNat| < 300 ∧
    (flo.toNat : ℚ) ≤ madeFlo fosc registers ∧
    madeFlo fosc registers < flo.toNat + 1

/-- The registers of the synthesizer that are written for a frequency. -/
def synthRegisters : List UInt8 :=
  [0x0d, 0x09, 0x0a, 0x0b]

/--
With a clock: the tuner makes the frequency and the computed one is returned, or
0 is returned and no register of the synthesizer is written; and it is 0 when the
whole part does not fit its 8 bits.
-/
def TunesOrRefuses (fosc intendedFlo : UInt32) : Prop :=
  (∀ state : State,
    state.vco.fosc = fosc →
    state.chip.Answering →
      ∃ answer after,
        Yields (tuneFreq intendedFlo) state answer after ∧
          ((computePllParams fosc intendedFlo = 0 ∧
              ∀ reg ∈ synthRegisters,
                after.chip.registers reg = state.chip.registers reg) ∨
            Tuned fosc intendedFlo (computePllParams fosc intendedFlo)
              after.chip.registers)) ∧
    (255 < intendedFlo.toNat * (dividerFor intendedFlo).2.toNat / fosc.toNat →
      computePllParams fosc intendedFlo = 0)

/-- The frequency of the VCO is less than 256 clocks, and 1/65536 of one at least. -/
def InRange (fosc intendedFlo : UInt32) : Prop :=
  intendedFlo.toNat * (dividerFor intendedFlo).2.toNat < 256 * fosc.toNat ∧
    fosc.toNat ≤ 65536 * (intendedFlo.toNat * (dividerFor intendedFlo).2.toNat)

instance (fosc intendedFlo : UInt32) : Decidable (InRange fosc intendedFlo) :=
  inferInstanceAs (Decidable (_ ∧ _))

/-! ## The words -/

section Words

variable {fosc intendedFlo : UInt32}

/-- The dividers of the table, and their bytes. -/
theorem dividerFor_cases
    (intendedFlo : UInt32) :
    2 ≤ (dividerFor intendedFlo).2.toNat ∧ (dividerFor intendedFlo).2.toNat ≤ 48 ∧
      decodedR (dividerFor intendedFlo).1 = (dividerFor intendedFlo).2.toNat := by
  have rows :
      ∀ row ∈ pllVars,
        2 ≤ row.mult.toNat ∧ row.mult.toNat ≤ 48 ∧
          decodedR row.regSynth7 = row.mult.toNat := by
    decide
  unfold dividerFor
  split
  · exact rows _ (List.mem_of_find?_eq_some ‹_›)
  · decide

/-- The frequency of the VCO that is meant. -/
theorem intendedFvco_toNat
    (intendedFlo : UInt32) :
    (intendedFlo.toUInt64 * (dividerFor intendedFlo).2.toUInt64).toNat =
      intendedFlo.toNat * (dividerFor intendedFlo).2.toNat := by
  obtain ⟨_, small, _⟩ := dividerFor_cases intendedFlo
  have bound :
      intendedFlo.toNat * (dividerFor intendedFlo).2.toNat < 2 ^ 64 :=
    (Nat.mul_le_mul intendedFlo.toNat_lt.le small).trans_lt (by decide)
  rw [UInt64.toNat_mul, UInt32.toNat_toUInt64, UInt8.toNat_toUInt64]
  exact Nat.mod_eq_of_lt bound

theorem wholeMultiple_toNat :
    (wholeMultiple fosc intendedFlo).toNat =
      intendedFlo.toNat * (dividerFor intendedFlo).2.toNat / fosc.toNat := by
  unfold wholeMultiple
  rw [UInt64.toNat_div, intendedFvco_toNat, UInt32.toNat_toUInt64]

theorem isFoscValid_iff :
    isFoscValid fosc = true ↔ 16000000 ≤ fosc.toNat ∧ fosc.toNat ≤ 30000000 := by
  have low : fosc < mHz 16 ↔ fosc.toNat < 16000000 :=
    UInt32.lt_iff_toNat_lt
  have high : mHz 30 < fosc ↔ 30000000 < fosc.toNat :=
    UInt32.lt_iff_toNat_lt
  unfold isFoscValid
  rw [decide_eq_true_iff, low, high]
  omega

/-- The fraction is the remainder in 1/65536 of the clock, rounded down. -/
theorem fraction_toNat
    (valid : 16000000 ≤ fosc.toNat ∧ fosc.toNat ≤ 30000000) :
    (fraction fosc intendedFlo).toNat =
        intendedFlo.toNat * (dividerFor intendedFlo).2.toNat % fosc.toNat * 65536 /
          fosc.toNat ∧
      (fraction fosc intendedFlo).toNat < 65536 := by
  have rest :
      intendedFlo.toNat * (dividerFor intendedFlo).2.toNat % fosc.toNat <
        fosc.toNat :=
    Nat.mod_lt _ (by omega)
  have below :
      fosc.toNat *
          (intendedFlo.toNat * (dividerFor intendedFlo).2.toNat / fosc.toNat) ≤
        intendedFlo.toNat * (dividerFor intendedFlo).2.toNat :=
    Nat.mul_div_le _ _
  have bound := (intendedFlo.toUInt64 * (dividerFor intendedFlo).2.toUInt64).toNat_lt
  rw [intendedFvco_toNat] at bound
  have whole :
      (fosc.toUInt64 * wholeMultiple fosc intendedFlo).toNat =
        fosc.toNat *
          (intendedFlo.toNat * (dividerFor intendedFlo).2.toNat / fosc.toNat) := by
    rw [UInt64.toNat_mul, UInt32.toNat_toUInt64, wholeMultiple_toNat]
    exact Nat.mod_eq_of_lt (below.trans_lt bound)
  have remainder :
      (intendedFlo.toUInt64 * (dividerFor intendedFlo).2.toUInt64 -
          fosc.toUInt64 * wholeMultiple fosc intendedFlo).toNat =
        intendedFlo.toNat * (dividerFor intendedFlo).2.toNat % fosc.toNat := by
    rw [UInt64.toNat_sub_of_le, intendedFvco_toNat, whole, Nat.mod_eq_sub]
    rw [UInt64.le_iff_toNat_le, intendedFvco_toNat, whole]
    exact below
  have small :
      intendedFlo.toNat * (dividerFor intendedFlo).2.toNat % fosc.toNat * 65536 /
          fosc.toNat < 65536 := by
    rw [Nat.div_lt_iff_lt_mul (by omega), Nat.mul_comm 65536]
    exact Nat.mul_lt_mul_of_pos_right rest (by decide)
  have value :
      (fraction fosc intendedFlo).toNat =
        intendedFlo.toNat * (dividerFor intendedFlo).2.toNat % fosc.toNat * 65536 /
          fosc.toNat := by
    have scaled :
        intendedFlo.toNat * (dividerFor intendedFlo).2.toNat % fosc.toNat * 65536 <
          2 ^ 64 := by
      omega
    unfold fraction
    dsimp only
    rw [UInt64.toNat_toUInt32, UInt64.toNat_div, UInt64.toNat_mul, remainder,
      UInt32.toNat_toUInt64]
    change _ * 65536 % 2 ^ 64 / _ % 2 ^ 32 = _
    rw [Nat.mod_eq_of_lt scaled]
    exact Nat.mod_eq_of_lt (small.trans (by decide))
  exact ⟨value, value.trans_lt small⟩

/-- The frequency of the VCO that the words make, rounded down. -/
theorem computeFvco_toNat
    (valid : 16000000 ≤ fosc.toNat ∧ fosc.toNat ≤ 30000000)
    (z : UInt8)
    (x : UInt16) :
    (computeFvco fosc z x).toNat =
      fosc.toNat * (65536 * z.toNat + x.toNat) / 65536 := by
  have zSmall := z.toNat_lt
  have xSmall := x.toNat_lt
  have zProduct : fosc.toNat * z.toNat ≤ 30000000 * 256 :=
    Nat.mul_le_mul valid.2 zSmall.le
  have xProduct : fosc.toNat * x.toNat ≤ 30000000 * 65536 :=
    Nat.mul_le_mul valid.2 xSmall.le
  have split :
      fosc.toNat * (65536 * z.toNat + x.toNat) =
        65536 * (fosc.toNat * z.toNat) + fosc.toNat * x.toNat := by
    ring
  unfold computeFvco
  rw [UInt64.toNat_add, UInt64.toNat_div, UInt64.toNat_mul, UInt64.toNat_mul,
    UInt32.toNat_toUInt64, UInt8.toNat_toUInt64, UInt16.toNat_toUInt64, split]
  change (fosc.toNat * z.toNat % 2 ^ 64 + fosc.toNat * x.toNat % 2 ^ 64 / 65536) %
    2 ^ 64 = _
  omega

/-- The words as one fraction, in 1/65536 of the clock. -/
def multiple (p : PllParams) : Nat :=
  65536 * p.z.toNat + p.x.toNat

/-- The words are those of the product, with its whole part cut to a byte. -/
theorem pllParams_words
    (valid : 16000000 ≤ fosc.toNat ∧ fosc.toNat ≤ 30000000) :
    (pllParams fosc intendedFlo).z.toNat =
        intendedFlo.toNat * (dividerFor intendedFlo).2.toNat / fosc.toNat % 256 ∧
      (pllParams fosc intendedFlo).x.toNat =
        intendedFlo.toNat * (dividerFor intendedFlo).2.toNat % fosc.toNat * 65536 /
          fosc.toNat := by
  obtain ⟨value, small⟩ := @fraction_toNat fosc intendedFlo valid
  constructor
  · change ((wholeMultiple fosc intendedFlo).toUInt8).toNat = _
    rw [UInt64.toNat_toUInt8, wholeMultiple_toNat]
  · change ((fraction fosc intendedFlo).toUInt16).toNat = _
    rw [UInt32.toNat_toUInt16, ← value]
    exact Nat.mod_eq_of_lt small

/-- What is returned: the frequency rounded down, or the error when it is none. -/
theorem computePllParams_toNat
    (valid : 16000000 ≤ fosc.toNat ∧ fosc.toNat ≤ 30000000) :
    (computePllParams fosc intendedFlo).toNat =
      if multiple (pllParams fosc intendedFlo) = 0 then 4294967274
      else
        fosc.toNat * multiple (pllParams fosc intendedFlo) / 65536 /
          (dividerFor intendedFlo).2.toNat := by
  obtain ⟨large, _, _⟩ := dividerFor_cases intendedFlo
  have fvco :=
    @computeFvco_toNat fosc valid (pllParams fosc intendedFlo).z
      (pllParams fosc intendedFlo).x
  change _ = fosc.toNat * multiple (pllParams fosc intendedFlo) / 65536 at fvco
  have bounded : multiple (pllParams fosc intendedFlo) ≤ 65536 * 255 + 65535 := by
    have zSmall := (pllParams fosc intendedFlo).z.toNat_lt
    have xSmall := (pllParams fosc intendedFlo).x.toNat_lt
    unfold multiple
    omega
  have product :
      fosc.toNat * multiple (pllParams fosc intendedFlo) ≤
        30000000 * (65536 * 255 + 65535) :=
    Nat.mul_le_mul valid.2 bounded
  unfold computePllParams
  rw [if_pos (isFoscValid_iff.mpr valid)]
  change (if computeFvco fosc (pllParams fosc intendedFlo).z
      (pllParams fosc intendedFlo).x = 0 then UInt32.ofInt (-22)
    else (computeFvco fosc (pllParams fosc intendedFlo).z
      (pllParams fosc intendedFlo).x /
        (dividerFor intendedFlo).2.toUInt64).toUInt32).toNat = _
  generalize computeFvco fosc (pllParams fosc intendedFlo).z
    (pllParams fosc intendedFlo).x = word at fvco ⊢
  generalize multiple (pllParams fosc intendedFlo) = count at fvco product ⊢
  by_cases none : count = 0
  · subst none
    have isZero : word = 0 := by
      apply UInt64.toNat_inj.mp
      rw [fvco, Nat.mul_zero]
      rfl
    rw [if_pos isZero, if_pos rfl]
    rfl
  · have least : fosc.toNat * 1 ≤ fosc.toNat * count :=
      Nat.mul_le_mul_left _ (Nat.one_le_iff_ne_zero.mpr none)
    have notZero : word ≠ 0 := by
      rintro rfl
      change 0 = _ at fvco
      omega
    have quotient :
        fosc.toNat * count / 65536 / (dividerFor intendedFlo).2.toNat < 2 ^ 32 := by
      rw [Nat.div_lt_iff_lt_mul (by omega)]
      omega
    rw [if_neg notZero, if_neg none, UInt64.toNat_toUInt32, UInt64.toNat_div,
      UInt8.toNat_toUInt64, fvco]
    exact Nat.mod_eq_of_lt quotient

/-- With a valid clock 0 is never returned. -/
theorem computePllParams_ne_zero
    (valid : 16000000 ≤ fosc.toNat ∧ fosc.toNat ≤ 30000000) :
    computePllParams fosc intendedFlo ≠ 0 := by
  obtain ⟨large, small, _⟩ := dividerFor_cases intendedFlo
  have value := @computePllParams_toNat fosc intendedFlo valid
  intro isZero
  rw [isZero] at value
  change 0 = _ at value
  split at value
  · cases value
  · have least :
        fosc.toNat * 1 ≤ fosc.toNat * multiple (pllParams fosc intendedFlo) :=
      Nat.mul_le_mul_left _ (Nat.one_le_iff_ne_zero.mpr ‹_›)
    have positive :
        1 ≤ fosc.toNat * multiple (pllParams fosc intendedFlo) / 65536 /
          (dividerFor intendedFlo).2.toNat := by
      rw [Nat.le_div_iff_mul_le (by omega), Nat.le_div_iff_mul_le (by decide)]
      omega
    omega

/-- In range the words make the frequency from below, to 1/65536 of the clock. -/
theorem multiple_close
    (valid : 16000000 ≤ fosc.toNat ∧ fosc.toNat ≤ 30000000)
    (inRange : InRange fosc intendedFlo) :
    multiple (pllParams fosc intendedFlo) ≠ 0 ∧
      fosc.toNat * multiple (pllParams fosc intendedFlo) ≤
        65536 * (intendedFlo.toNat * (dividerFor intendedFlo).2.toNat) ∧
      65536 * (intendedFlo.toNat * (dividerFor intendedFlo).2.toNat) <
        fosc.toNat * multiple (pllParams fosc intendedFlo) + fosc.toNat := by
  obtain ⟨z, x⟩ := @pllParams_words fosc intendedFlo valid
  unfold InRange at inRange
  unfold multiple
  rw [z, x]
  generalize intendedFlo.toNat * (dividerFor intendedFlo).2.toNat = product at *
  have few : product / fosc.toNat < 256 := by
    rw [Nat.div_lt_iff_lt_mul (by omega)]
    exact inRange.1
  rw [Nat.mod_eq_of_lt few]
  have whole := Nat.div_add_mod product fosc.toNat
  have below :
      fosc.toNat * (product % fosc.toNat * 65536 / fosc.toNat) ≤
        product % fosc.toNat * 65536 :=
    Nat.mul_div_le _ _
  have above :
      product % fosc.toNat * 65536 <
        fosc.toNat * (product % fosc.toNat * 65536 / fosc.toNat) + fosc.toNat := by
    rw [← Nat.mul_add_one]
    exact Nat.lt_mul_div_succ _ (by omega)
  have split :
      fosc.toNat *
          (65536 * (product / fosc.toNat) + product % fosc.toNat * 65536 / fosc.toNat) =
        65536 * (fosc.toNat * (product / fosc.toNat)) +
          fosc.toNat * (product % fosc.toNat * 65536 / fosc.toNat) := by
    ring
  refine ⟨?_, ?_, ?_⟩
  · intro none
    rw [none] at split
    omega
  · omega
  · omega

end Words

/-! ## The registers -/

section Made

variable {fosc intendedFlo : UInt32} {registers : UInt8 → UInt8}

/-- The registers hold the bytes for a frequency. -/
def Written (p : PllParams) (registers : UInt8 → UInt8) : Prop :=
  ∀ write ∈ synthWrites p, registers write.1 = write.2

/-- The frequency that the bytes make. -/
theorem madeFlo_of_written
    (written : Written (pllParams fosc intendedFlo) registers) :
    madeFlo fosc registers =
      ((fosc.toNat * multiple (pllParams fosc intendedFlo) : Nat) : ℚ) /
        ((65536 * (dividerFor intendedFlo).2.toNat : Nat) : ℚ) := by
  have synth7 := written (0x0d, (pllParams fosc intendedFlo).rIdx) (by simp [synthWrites])
  have synth3 := written (0x09, (pllParams fosc intendedFlo).z) (by simp [synthWrites])
  have synth4 := written (0x0a, ((pllParams fosc intendedFlo).x &&& 0xff).toUInt8)
    (by simp [synthWrites])
  have synth5 := written (0x0b, ((pllParams fosc intendedFlo).x >>> 8).toUInt8)
    (by simp [synthWrites])
  dsimp only at synth7 synth3 synth4 synth5
  have divider :
      decodedR (pllParams fosc intendedFlo).rIdx = (dividerFor intendedFlo).2.toNat :=
    (dividerFor_cases intendedFlo).2.2
  have word :
      (registers 0x0b).toNat * 256 + (registers 0x0a).toNat =
        (pllParams fosc intendedFlo).x.toNat := by
    rw [synth4, synth5, toNat_highByte, toNat_lowByte]
    omega
  unfold madeFlo multiple
  rw [word, synth7, synth3, divider]
  push_cast
  field_simp

/-- In range the tuner makes the frequency. -/
theorem tuned_of_inRange
    (valid : 16000000 ≤ fosc.toNat ∧ fosc.toNat ≤ 30000000)
    (inRange : InRange fosc intendedFlo)
    (written : Written (pllParams fosc intendedFlo) registers) :
    Tuned fosc intendedFlo (computePllParams fosc intendedFlo) registers := by
  obtain ⟨large, _, _⟩ := dividerFor_cases intendedFlo
  obtain ⟨some, below, above⟩ := multiple_close valid inRange
  have flo := @computePllParams_toNat fosc intendedFlo valid
  rw [if_neg some, Nat.div_div_eq_div_mul] at flo
  unfold Tuned
  rw [madeFlo_of_written written, flo]
  generalize fosc.toNat * multiple (pllParams fosc intendedFlo) = made at *
  have positive : 0 < 65536 * (dividerFor intendedFlo).2.toNat := by
    omega
  have positiveRat : (0 : ℚ) < (65536 * (dividerFor intendedFlo).2.toNat : Nat) :=
    Nat.cast_pos.mpr positive
  refine ⟨?_, Nat.cast_div_le, ?_⟩
  · have product :
        65536 * (intendedFlo.toNat * (dividerFor intendedFlo).2.toNat) =
          intendedFlo.toNat * (65536 * (dividerFor intendedFlo).2.toNat) := by
      ring
    have least : 131072 ≤ 65536 * (dividerFor intendedFlo).2.toNat := by
      omega
    rw [product] at below above
    generalize 65536 * (dividerFor intendedFlo).2.toNat = unit at *
    have near : intendedFlo.toNat * unit < made + 300 * unit := by
      omega
    have lower : ((intendedFlo.toNat * unit : Nat) : ℚ) < ((made + 300 * unit : Nat) : ℚ) :=
      Nat.cast_lt.mpr near
    have upper : ((made : Nat) : ℚ) ≤ ((intendedFlo.toNat * unit : Nat) : ℚ) :=
      Nat.cast_le.mpr below
    push_cast at lower upper
    rw [abs_lt, lt_sub_iff_add_lt, sub_lt_iff_lt_add, lt_div_iff₀ positiveRat,
      div_lt_iff₀ positiveRat]
    constructor <;>
      linarith
  · have next := Nat.lt_mul_div_succ made positive
    have nextRat := (Nat.cast_lt (α := ℚ)).mpr next
    push_cast at nextRat ⊢
    rw [div_lt_iff₀ (by exact_mod_cast positiveRat)]
    linarith

/-- Below the range nothing is made, and the returned error is no frequency. -/
theorem not_tuned_of_nothing
    (valid : 16000000 ≤ fosc.toNat ∧ fosc.toNat ≤ 30000000)
    (nothing : multiple (pllParams fosc intendedFlo) = 0)
    (written : Written (pllParams fosc intendedFlo) registers) :
    ¬ Tuned fosc intendedFlo (computePllParams fosc intendedFlo) registers := by
  have flo := @computePllParams_toNat fosc intendedFlo valid
  rw [if_pos nothing] at flo
  rintro ⟨_, below, _⟩
  rw [madeFlo_of_written written, flo, nothing] at below
  norm_num at below

/-- Out of range the whole part is cut, or there is nothing to make. -/
theorem out_of_range
    (valid : 16000000 ≤ fosc.toNat ∧ fosc.toNat ≤ 30000000)
    (outside : ¬ InRange fosc intendedFlo) :
    255 < intendedFlo.toNat * (dividerFor intendedFlo).2.toNat / fosc.toNat ∨
      multiple (pllParams fosc intendedFlo) = 0 := by
  obtain ⟨z, x⟩ := @pllParams_words fosc intendedFlo valid
  unfold InRange at outside
  unfold multiple
  rw [z, x]
  generalize intendedFlo.toNat * (dividerFor intendedFlo).2.toNat = product at *
  by_cases large : 256 * fosc.toNat ≤ product
  · left
    rw [Nat.lt_iff_add_one_le, Nat.le_div_iff_mul_le (by omega)]
    exact large
  · right
    have small : product * 65536 < fosc.toNat := by
      omega
    have less : product < fosc.toNat := by
      omega
    rw [Nat.div_eq_of_lt less, Nat.mod_eq_of_lt less, Nat.div_eq_of_lt small]

end Made

/-! ## The run -/

section Running

variable {before start : Chip} {footprint : List UInt8}

theorem regWrite_within
    (within : Chip.Within footprint start before)
    {reg : UInt8}
    (member : reg ∈ footprint)
    (val : UInt8) :
    Completes (regWrite reg val) before (Chip.Within footprint start) := by
  apply (within.writeByte member val).completes.bind
  intro written after within
  split <;>
    exact Completes.pure within

theorem regRead_within
    (within : Chip.Within footprint start before)
    (reg : UInt8) :
    Completes (regRead reg) before (Chip.Within footprint start) := by
  apply (within.readByte reg).completes.bind
  intro shown after within
  split <;>
    exact Completes.pure within

theorem regSetMask_within
    (within : Chip.Within footprint start before)
    {reg : UInt8}
    (member : reg ∈ footprint)
    (mask val : UInt8) :
    Completes (regSetMask reg mask val) before (Chip.Within footprint start) := by
  apply (regRead_within within reg).bind
  intro shown middle within
  dsimp only
  split
  · exact Completes.pure within
  · exact regWrite_within within member _

/-- On an answering chip each register holds the last byte for it. -/
theorem regWrites_answered
    (answering : before.Answering)
    (writes : List (UInt8 × UInt8)) :
    Completes (regWrites writes) before (Chip.Loaded writes before) := by
  induction writes generalizing before with
  | nil =>
      exact Completes.pure (.nil answering)
  | cons first rest inductionHypothesis =>
      have wrote :
          Returns (regWrite first.1 first.2) before 0
            (fun after => after = before.passed.written first.1 first.2) := by
        refine Returns.bind
          ⟨_, writeByte_answered answering first.1 first.2, rfl⟩ ?_
        rintro _ rfl
        exact Returns.pure rfl
      apply wrote.completes.bind
      rintro _ middle rfl
      obtain ⟨result, later⟩ :=
        @inductionHypothesis (before.passed.written first.1 first.2) answering
      exact ⟨result, later.mono fun after loaded => .cons rfl loaded⟩

/-- A program of the chip leaves the other fields alone. -/
theorem onChip_completes
    {Value : Type}
    {program : Program Chip Value}
    {state : State}
    {Reached : Chip → Prop}
    (completes : Completes program state.chip Reached) :
    Completes (onChip program) state (fun after =>
      Reached after.chip ∧ after.vco = state.vco) := by
  obtain ⟨value, returns⟩ := completes
  exact (returns.onPart fun chip reached => ⟨reached, rfl⟩).completes

/-- The band and the filter are chosen outside of the PLL. -/
def tuningRegisters : List UInt8 :=
  [0x78, 0x07, 0x10]

theorem bandSet_within
    {state : State}
    (within : Chip.Within tuningRegisters start state.chip)
    (band : Band) :
    Completes (bandSet band) state (fun after =>
      Chip.Within tuningRegisters start after.chip) := by
  apply (onChip_completes (regWrite_within within (by decide) _)).bind
  rintro _ first ⟨within, _⟩
  apply (onChip_completes (regSetMask_within within (by decide) _ _)).bind
  rintro _ second ⟨within, _⟩
  apply (onChip_completes (regSetMask_within within (by decide) _ _)).bind
  rintro rc third ⟨within, _⟩
  split
  · exact Completes.modifyBind (Completes.pure within)
  · exact Completes.pure within

theorem rfFilterSet_within
    {state : State}
    (within : Chip.Within tuningRegisters start state.chip) :
    Completes rfFilterSet state (fun after =>
      Chip.Within tuningRegisters start after.chip) := by
  have member : 0x10 ∈ tuningRegisters := by
    decide
  apply Completes.getBind
  obtain ⟨value, after, yields, within, _⟩ :=
    onChip_completes (regSetMask_within within member _ _)
  exact ⟨value, after, yields, within⟩

/-- On an answering chip the bytes for the frequency are in their registers. -/
theorem tuneFreq_written
    {state : State}
    {freq : UInt32}
    (answering : state.chip.Answering)
    (accepted : computePllParams state.vco.fosc freq ≠ 0) :
    Completes (tuneFreq freq) state (fun after =>
      Written (pllParams state.vco.fosc freq) after.chip.registers) := by
  apply Completes.getBind
  rw [if_neg accepted]
  have tunes :
      Completes (tuneParams (pllParams state.vco.fosc freq)) state (fun after =>
        ∃ loaded : Chip,
          Written (pllParams state.vco.fosc freq) loaded.registers ∧
            Chip.Within tuningRegisters loaded after.chip) := by
    apply (onChip_completes (regWrites_answered answering _)).bind
    rintro _ loaded ⟨⟨answering, registers⟩, _⟩
    have written : Written (pllParams state.vco.fosc freq) loaded.chip.registers := by
      intro write member
      rw [registers]
      unfold synthWrites at member ⊢
      simp only [List.mem_cons, List.not_mem_nil, or_false] at member
      rcases member with rfl | rfl | rfl | rfl <;>
        simp [Function.update]
    have bands :=
      @bandSet_within loaded.chip
        { loaded with vco := pllParams state.vco.fosc freq } (answering.within _)
        (bandFor (pllParams state.vco.fosc freq).flo)
    apply Completes.modifyBind
    apply bands.bind
    intro _ banded within
    apply (rfFilterSet_within within).bind
    intro _ after within
    exact Completes.pure ⟨_, written, within⟩
  apply tunes.bind
  rintro _ tuned ⟨loaded, written, within⟩
  apply (onChip_completes (regRead_within within 0x07)).bind
  rintro rc after ⟨within, _⟩
  have writtenStill :
      Written (pllParams state.vco.fosc freq) after.chip.registers := by
    intro write member
    rw [within.others write.1 ?_, written write member]
    unfold synthWrites at member
    simp only [List.mem_cons, List.not_mem_nil, or_false] at member
    rcases member with rfl | rfl | rfl | rfl <;>
      simp [tuningRegisters]
  split <;>
    exact Completes.pure writtenStill

end Running

/-- A state with a clock, on a cleared chip. -/
def clockedState (fosc : UInt32) : State where
  chip := Chip.cleared
  band := .vhf2
  vco := ⟨fosc, 0, 0, 0, 0, 0, 0, 0⟩

section Tuning

variable {fosc intendedFlo : UInt32}

/-- Out of range the tuner makes another frequency, or returns the error as one. -/
theorem not_tunesOrRefuses
    (valid : 16000000 ≤ fosc.toNat ∧ fosc.toNat ≤ 30000000)
    (outside : ¬ InRange fosc intendedFlo) :
    ¬ TunesOrRefuses fosc intendedFlo := by
  rintro ⟨tunes, refuses⟩
  have accepted : computePllParams fosc intendedFlo ≠ 0 :=
    computePllParams_ne_zero valid
  rcases out_of_range valid outside with large | nothing
  · exact accepted (refuses large)
  · obtain ⟨answer, after, yields, refused | tuned⟩ :=
      tunes (clockedState fosc) rfl Chip.cleared_answering
    · exact accepted refused.1
    · have written :=
        (@tuneFreq_written (clockedState fosc) _ Chip.cleared_answering
          accepted).of_yields yields
      exact not_tuned_of_nothing valid nothing written tuned

/--
With a clock from 16 to 30 MHz, and for every frequency: the tuner makes it to 300
Hz and returns what it makes, or refuses it, exactly if the frequency of the VCO is
in range.
-/
theorem tuneFreq_tunes_iff
    (valid : 16000000 ≤ fosc.toNat ∧ fosc.toNat ≤ 30000000)
    (intendedFlo : UInt32) :
    TunesOrRefuses fosc intendedFlo ↔ InRange fosc intendedFlo := by
  constructor
  · intro tunes
    by_contra outside
    exact not_tunesOrRefuses valid outside tunes
  · intro inRange
    have accepted : computePllParams fosc intendedFlo ≠ 0 :=
      computePllParams_ne_zero valid
    constructor
    · rintro state rfl answering
      obtain ⟨answer, after, yields, written⟩ := tuneFreq_written answering accepted
      exact ⟨answer, after, yields, .inr (tuned_of_inRange valid inRange written)⟩
    · intro large
      rw [Nat.lt_iff_add_one_le, Nat.le_div_iff_mul_le (by omega)] at large
      exact absurd inRange.1 (Nat.not_lt.mpr large)

/-- With a clock of 28.8 MHz the tuner makes 100 MHz. -/
theorem tuneFreq_tunes_iff_hundred :
    TunesOrRefuses 28800000 100000000 :=
  (tuneFreq_tunes_iff (by decide) 100000000).mpr (by decide)

/--
With a clock of 16 MHz the whole part of 1.1 GHz is cut, and with one of 28.8 MHz
the error for 0 Hz is returned as a frequency.
-/
theorem tuneFreq_not_tunes :
    ¬ TunesOrRefuses 16000000 1100000000 ∧ ¬ TunesOrRefuses 28800000 0 :=
  ⟨not_tunesOrRefuses (by decide) (by decide),
    not_tunesOrRefuses (by decide) (by decide)⟩

end Tuning

end LibRtlSdr.E4k
