import LibRtlSdr.ByteChip
import Mathlib.Algebra.Order.Field.Rat
import Mathlib.Data.Nat.Cast.Field
import Mathlib.Tactic.Linarith

namespace LibRtlSdr.Fc2580

open DriverProgram ByteChip

/-!
# The FC2580

`tuner_fc2580.c` computes its PLL in kHz and in 32 bits.  To shift the remainder of
the VCO frequency up by 20 bits it shifts the remainder by 16 and the divisor down
by 4.
-/

/-! ## Registers and filter -/

/-- `result &= fc2580_i2c_write(pTuner, reg, val)`, for each pair in order. -/
def i2cWrites : List (UInt8 × UInt8) → Program Chip Bool
  | [] => return true
  | (reg, val) :: rest => do
      let written ← writeByte reg val
      let others ← i2cWrites rest
      return written && others

/-- The registers for a filter of `fc2580_set_filter`. -/
def filterWrites (filterBw : UInt8) (freqXtal : UInt32) : List (UInt8 × UInt8) :=
  if filterBw = 1 then
    [(0x36, 0x1c), (0x37, (4151 * freqXtal / 1000000).toUInt8), (0x39, 0x00),
      (0x2e, 0x09)]
  else if filterBw = 6 then
    [(0x36, 0x18), (0x37, (4400 * freqXtal / 1000000).toUInt8), (0x39, 0x00),
      (0x2e, 0x09)]
  else if filterBw = 7 then
    [(0x36, 0x18), (0x37, (3910 * freqXtal / 1000000).toUInt8), (0x39, 0x80),
      (0x2e, 0x09)]
  else if filterBw = 8 then
    [(0x36, 0x18), (0x37, (3300 * freqXtal / 1000000).toUInt8), (0x39, 0x80),
      (0x2e, 0x09)]
  else
    []

/-- Rounds of the calibration; `cal_mon` stays as it was when it cannot be read. -/
def calibrateFilter : Nat → UInt8 → Program Chip Bool
  | 0, _ => return true
  | rounds + 1, calMon => do
      let read ← readByte 0x2f
      let calMon := read.getD calMon
      if calMon &&& 0xc0 ≠ 0xc0 then
        let written ← i2cWrites [(0x2e, 0x01), (0x2e, 0x09)]
        let others ← calibrateFilter rounds calMon
        return read.isSome && written && others
      else
        return read.isSome

/-- `fc2580_set_filter`. -/
def setFilter (filterBw : UInt8) (freqXtal : UInt32) : Program Chip Bool := do
  let chosen ← i2cWrites (filterWrites filterBw freqXtal)
  let calibrated ← calibrateFilter 5 0
  let ended ← i2cWrites [(0x2e, 0x01)]
  return chosen && calibrated && ended

/-! ## The PLL -/

/-- `fc2580_band_type`, without `FC2580_NO_BAND`. -/
inductive Band where
  | uhf
  | l
  | vhf
  deriving Repr, DecidableEq

/-- `band`, of the frequency in kHz. -/
def bandOf (fLo : UInt32) : Band :=
  if 1000000 < fLo then .l
  else if 400000 < fLo then .uhf
  else .vhf

/-- What the frequency is multiplied by for that of the VCO. -/
def vcoFactor : Band → UInt32
  | .uhf => 4
  | .l => 2
  | .vhf => 12

/-- `f_vco`. -/
def fVco (fLo : UInt32) : UInt32 :=
  fLo * vcoFactor (bandOf fLo)

/-- `r_val`. -/
def rVal (fVco freqXtal : UInt32) : UInt32 :=
  if 2 * 76 * freqXtal ≤ fVco then 1
  else if 76 * freqXtal ≤ fVco then 2
  else 4

/-- The words for the PLL, with a crystal that no division makes zero. -/
structure Pll where
  fComp : UInt32
  nVal : UInt32
  fDiff : UInt32
  fDiffShifted : UInt32
  /-- The divisor, shifted down by `pre_shift_bits`. -/
  divisor : UInt32
  /-- `k_val`, before it is rounded. -/
  quotient : UInt32
  kVal : UInt32

/-- The words for a frequency of the VCO and a divider of the reference. -/
def pll (fVco freqXtal rVal : UInt32) : Pll :=
  let fComp := freqXtal / rVal
  let nVal := fVco / 2 / fComp
  let fDiff := fVco - 2 * fComp * nVal
  let fDiffShifted := fDiff <<< (20 - 4)
  let divisor := (2 * fComp) >>> 4
  let quotient := fDiffShifted / divisor
  let kVal :=
    if fComp >>> 4 ≤ fDiffShifted - quotient * divisor then quotient + 1
    else quotient
  { fComp, nVal, fDiff, fDiffShifted, divisor, quotient, kVal }

/-- `data_0x02`, with the internal oscillator. -/
def data0x02 (fVco : UInt32) (band : Band) : UInt8 :=
  let vco : UInt8 := if 2600000 ≤ fVco then 0x0e ||| 0x08 else 0x0e &&& 0xf7
  match band with
  | .uhf => vco &&& 0x3f
  | .vhf => vco &&& 0x3f ||| 0x80
  | .l => vco &&& 0x3f ||| 0x40

/-- `data_0x18`: the divider of the reference, and the high part of `k_val`. -/
def data0x18 (rVal kVal : UInt32) : UInt8 :=
  let divider : UInt8 := if rVal = 1 then 0x00 else if rVal = 2 then 0x10 else 0x20
  divider + (kVal >>> 16).toUInt8

/-- The registers for a band. -/
def bandWrites (fLo : UInt32) : Band → List (UInt8 × UInt8)
  | .uhf =>
      [(0x25, 0xf0), (0x27, 0x77), (0x28, 0x53), (0x29, 0x60), (0x30, 0x09),
        (0x50, 0x8c), (0x53, 0x50),
        (0x5f, if fLo < 538000 then 0x13 else 0x15)] ++
      (if fLo < 538000 then
        [(0x61, 0x07), (0x62, 0x06), (0x67, 0x06), (0x68, 0x08), (0x69, 0x10),
          (0x6a, 0x12)]
      else if fLo < 794000 then
        [(0x61, 0x03), (0x62, 0x03), (0x67, 0x03), (0x68, 0x05), (0x69, 0x0c),
          (0x6a, 0x0e)]
      else
        [(0x61, 0x07), (0x62, 0x06), (0x67, 0x07), (0x68, 0x09), (0x69, 0x10),
          (0x6a, 0x12)]) ++
      [(0x63, 0x15), (0x6b, 0x0b), (0x6c, 0x0c), (0x6d, 0x78), (0x6e, 0x32),
        (0x6f, 0x14)]
  | .vhf =>
      [(0x27, 0x77), (0x28, 0x33), (0x29, 0x40), (0x30, 0x09), (0x50, 0x8c),
        (0x53, 0x50), (0x5f, 0x0f), (0x61, 0x07), (0x62, 0x00), (0x63, 0x15),
        (0x67, 0x03), (0x68, 0x05), (0x69, 0x10), (0x6a, 0x12), (0x6b, 0x08),
        (0x6c, 0x0a), (0x6d, 0x78), (0x6e, 0x32), (0x6f, 0x54)]
  | .l =>
      [(0x2b, 0x70), (0x2c, 0x37), (0x2d, 0xe7), (0x30, 0x09), (0x44, 0x20),
        (0x50, 0x8c), (0x53, 0x50), (0x5f, 0x0f), (0x61, 0x0f), (0x62, 0x00),
        (0x63, 0x13), (0x67, 0x00), (0x68, 0x02), (0x69, 0x0c), (0x6a, 0x0e),
        (0x6b, 0x08), (0x6c, 0x0a), (0x6d, 0xa0), (0x6e, 0x50), (0x6f, 0x14)]

/-- The filter for a band. -/
def bandFilter : Band → UInt8
  | .uhf => 8
  | .vhf => 7
  | .l => 1

/-- The words for a frequency in kHz. -/
def words (fLo freqXtal : UInt32) : Pll :=
  pll (fVco fLo) freqXtal (rVal (fVco fLo) freqXtal)

/-- The registers for the PLL. -/
def pllWrites (fLo freqXtal : UInt32) : List (UInt8 × UInt8) :=
  [(0x18, data0x18 (rVal (fVco fLo) freqXtal) (words fLo freqXtal).kVal),
    (0x1a, ((words fLo freqXtal).kVal >>> 8).toUInt8),
    (0x1b, (words fLo freqXtal).kVal.toUInt8),
    (0x1c, (words fLo freqXtal).nVal.toUInt8)]

/-- `fc2580_set_freq`. -/
def setFreq (fLo freqXtal : UInt32) : Program Chip Bool := do
  let band := bandOf fLo
  let prepared ← i2cWrites (bandWrites fLo band)
  let filtered ← setFilter (bandFilter band) freqXtal
  -- a command about the pre-divide ratio of the AGC clock
  let divided ← i2cWrites (if 28000 ≤ freqXtal then [(0x4b, 0x22)] else [])
  let selected ← i2cWrites [(0x02, data0x02 (fVco fLo) band)]
  let loaded ← i2cWrites (pllWrites fLo freqXtal)
  -- the load capacitor of the UHF LNA
  let capped ← i2cWrites
    (if band = .uhf then [(0x2d, if fLo ≤ 794000 then 0x9f else 0x8f)] else [])
  return prepared && filtered && divided && selected && loaded && capped

/-- `CRYSTAL_FREQ`, in kHz. -/
def crystalFreqKhz : UInt32 :=
  (16384000 + 500) / 1000

/-- `RfFreqKhz`. -/
def rfFreqKhz (rfFreqHz : UInt64) : UInt32 :=
  ((rfFreqHz + 500) / 1000).toUInt32

/-- `fc2580_SetRfFreqHz`; 1 is `FUNCTION_ERROR`. -/
def setRfFreqHz (rfFreqHz : UInt64) : Program Chip Int32 := do
  if ← setFreq (rfFreqKhz rfFreqHz) crystalFreqKhz then
    return 0
  else
    return 1

/-! ## What the bytes say -/

/-- The divider of the reference that a nibble stands for. -/
def dividerOf (nibble : UInt8) : Option Nat :=
  if nibble = 0 then some 1
  else if nibble = 1 then some 2
  else if nibble = 2 then some 4
  else none

/-- The divider of the reference: the bits above the high part of the fraction. -/
def decodedR (registers : UInt8 → UInt8) : Option Nat :=
  dividerOf (registers 0x18 >>> 4)

/-- The fraction, in 1/2^20. -/
def decodedK (registers : UInt8 → UInt8) : Nat :=
  (registers 0x18 &&& 0x0f).toNat * 2 ^ 16 + (registers 0x1a).toNat * 2 ^ 8 +
    (registers 0x1b).toNat

/-- The whole steps. -/
def decodedN (registers : UInt8 → UInt8) : Nat :=
  (registers 0x1c).toNat

/-- No operation on the words leaves its 32 bits, goes below zero or is cut. -/
structure Fits (fLo : UInt32) (words : Pll) : Prop where
  vco : fLo.toNat * (vcoFactor (bandOf fLo)).toNat < 2 ^ 32
  limit : 2 * 76 * crystalFreqKhz.toNat < 2 ^ 32
  filter : 4400 * crystalFreqKhz.toNat < 2 ^ 32
  steps : 2 * words.fComp.toNat * words.nVal.toNat ≤ (fVco fLo).toNat
  shifted : words.fDiff.toNat * 2 ^ (20 - 4) < 2 ^ 32
  doubled : 2 * words.fComp.toNat < 2 ^ 32
  covered : words.quotient.toNat * words.divisor.toNat ≤ words.fDiffShifted.toNat
  rounded : words.quotient.toNat + 1 < 2 ^ 32
  kVal : words.kVal.toNat < 2 ^ 20
  nVal : words.nVal.toNat ≤ 255

/--
The bytes hold the words, and make the frequency of the VCO from the reference.
-/
structure Exact (fLo : UInt32) (registers : UInt8 → UInt8) : Prop where
  divider : decodedR registers = some (rVal (fVco fLo) crystalFreqKhz).toNat
  fraction : decodedK registers = (words fLo crystalFreqKhz).kVal.toNat
  steps : decodedN registers = (words fLo crystalFreqKhz).nVal.toNat
  frequency :
    ∃ r ∈ [1, 2, 4],
      decodedR registers = some r ∧
        decodedK registers < 2 ^ 20 ∧
        decodedN registers ≤ 255 ∧
        2 * (16384 / r : ℚ) *
            ((decodedN registers : ℚ) + (decodedK registers : ℚ) / 2 ^ 20) =
          ((fLo.toNat * (vcoFactor (bandOf fLo)).toNat : Nat) : ℚ)

/-! ## The arithmetic -/

section Arithmetic

variable {fLo : UInt32}

/-- Below 2^22 kHz the frequency of the VCO is an even one below 2^23. -/
theorem vco_bounds
    (low : fLo.toNat < 4194304) :
    fLo.toNat * (vcoFactor (bandOf fLo)).toNat < 8388608 ∧
      fLo.toNat * (vcoFactor (bandOf fLo)).toNat % 2 = 0 := by
  unfold bandOf
  simp only [UInt32.lt_iff_toNat_lt]
  split_ifs <;>
    simp only [vcoFactor, UInt32.reduceToNat] at * <;>
    omega

theorem fVco_toNat
    (low : fLo.toNat < 4194304) :
    (fVco fLo).toNat = fLo.toNat * (vcoFactor (bandOf fLo)).toNat := by
  obtain ⟨small, _⟩ := vco_bounds low
  unfold fVco
  rw [UInt32.toNat_mul]
  exact Nat.mod_eq_of_lt (small.trans (by decide))

/-- The divider of the reference keeps the whole steps in a byte. -/
theorem rVal_cases
    {fVco : UInt32}
    (small : fVco.toNat < 8388608) :
    (rVal fVco crystalFreqKhz = 1 ∧ fVco.toNat < 2 * 16384 * 256) ∨
      (rVal fVco crystalFreqKhz = 2 ∧ fVco.toNat < 2 * 8192 * 256) ∨
        (rVal fVco crystalFreqKhz = 4 ∧ fVco.toNat < 2 * 4096 * 256) := by
  have high : 2 * 76 * crystalFreqKhz ≤ fVco ↔ 2490368 ≤ fVco.toNat :=
    UInt32.le_iff_toNat_le
  have middle : 76 * crystalFreqKhz ≤ fVco ↔ 1245184 ≤ fVco.toNat :=
    UInt32.le_iff_toNat_le
  unfold rVal
  simp only [high, middle]
  split_ifs <;>
    simp <;>
    omega

/-- The difference is the remainder of two reference steps. -/
theorem pll_fDiff
    {fVco rVal : UInt32}
    {comp : Nat}
    (divided : (crystalFreqKhz / rVal).toNat = comp)
    (small : comp ≤ 16384) :
    (pll fVco crystalFreqKhz rVal).nVal.toNat = fVco.toNat / (2 * comp) ∧
      (pll fVco crystalFreqKhz rVal).fDiff.toNat = fVco.toNat % (2 * comp) := by
  have bound := fVco.toNat_lt
  have steps :
      (pll fVco crystalFreqKhz rVal).nVal.toNat = fVco.toNat / (2 * comp) := by
    unfold pll
    rw [UInt32.toNat_div, UInt32.toNat_div, divided]
    exact Nat.div_div_eq_div_mul _ _ _
  have doubled : (2 * (crystalFreqKhz / rVal)).toNat = 2 * comp := by
    rw [UInt32.toNat_mul, divided]
    exact Nat.mod_eq_of_lt (by
      change 2 * comp < 2 ^ 32
      omega)
  have below : 2 * comp * (fVco.toNat / (2 * comp)) ≤ fVco.toNat :=
    Nat.mul_div_le _ _
  have counted :
      (2 * (crystalFreqKhz / rVal) * (pll fVco crystalFreqKhz rVal).nVal).toNat =
        2 * comp * (fVco.toNat / (2 * comp)) := by
    rw [UInt32.toNat_mul, doubled, steps]
    exact Nat.mod_eq_of_lt (below.trans_lt bound)
  refine ⟨steps, ?_⟩
  change (fVco - 2 * (crystalFreqKhz / rVal) *
    (pll fVco crystalFreqKhz rVal).nVal).toNat = _
  rw [UInt32.toNat_sub_of_le _ _ (UInt32.le_iff_toNat_le.mpr (counted.trans_le below)),
    counted, Nat.mod_eq_sub]

/-- A power of two divides what is shifted, so the fraction is not rounded. -/
theorem pll_kVal
    {fVco rVal : UInt32}
    {comp : Nat}
    (divided : (crystalFreqKhz / rVal).toNat = comp)
    (power : comp = 16384 ∨ comp = 8192 ∨ comp = 4096) :
    (pll fVco crystalFreqKhz rVal).divisor.toNat = 2 * comp / 2 ^ 4 ∧
      (pll fVco crystalFreqKhz rVal).fDiffShifted.toNat =
        fVco.toNat % (2 * comp) * 2 ^ 16 ∧
      (pll fVco crystalFreqKhz rVal).quotient.toNat =
        fVco.toNat % (2 * comp) * (2 ^ 20 / (2 * comp)) ∧
      (pll fVco crystalFreqKhz rVal).kVal =
        (pll fVco crystalFreqKhz rVal).quotient := by
  obtain ⟨_, difference⟩ := @pll_fDiff fVco rVal comp divided (by omega)
  have rest : fVco.toNat % (2 * comp) < 2 * comp :=
    Nat.mod_lt _ (by omega)
  have divisor :
      (pll fVco crystalFreqKhz rVal).divisor.toNat = 2 * comp / 2 ^ 4 := by
    change ((2 * (crystalFreqKhz / rVal)) >>> 4).toNat = _
    rw [UInt32.toNat_shiftRight, UInt32.toNat_mul, divided, Nat.shiftRight_eq_div_pow,
      Nat.mod_eq_of_lt (by change 2 * comp < 2 ^ 32; omega)]
    rfl
  have shifted :
      (pll fVco crystalFreqKhz rVal).fDiffShifted.toNat =
        fVco.toNat % (2 * comp) * 2 ^ 16 := by
    change ((pll fVco crystalFreqKhz rVal).fDiff <<< (20 - 4)).toNat = _
    rw [UInt32.toNat_shiftLeft, difference, Nat.shiftLeft_eq]
    exact Nat.mod_eq_of_lt (by
      change _ * 2 ^ 16 < 2 ^ 32
      omega)
  have quotient :
      (pll fVco crystalFreqKhz rVal).quotient.toNat =
        fVco.toNat % (2 * comp) * (2 ^ 20 / (2 * comp)) := by
    change ((pll fVco crystalFreqKhz rVal).fDiffShifted /
      (pll fVco crystalFreqKhz rVal).divisor).toNat = _
    rw [UInt32.toNat_div, shifted, divisor]
    rcases power with rfl | rfl | rfl <;>
      omega
  have product :
      fVco.toNat % (2 * comp) * (2 ^ 20 / (2 * comp)) * (2 * comp / 2 ^ 4) =
        fVco.toNat % (2 * comp) * 2 ^ 16 := by
    rcases power with rfl | rfl | rfl <;>
      omega
  have covered :
      (pll fVco crystalFreqKhz rVal).quotient * (pll fVco crystalFreqKhz rVal).divisor =
        (pll fVco crystalFreqKhz rVal).fDiffShifted := by
    apply UInt32.toNat_inj.mp
    rw [UInt32.toNat_mul, quotient, divisor, product, shifted]
    exact Nat.mod_eq_of_lt (by omega)
  have threshold : ¬ (crystalFreqKhz / rVal) >>> 4 ≤ 0 := by
    rw [UInt32.le_iff_toNat_le, UInt32.toNat_shiftRight, divided,
      Nat.shiftRight_eq_div_pow]
    change ¬ comp / 2 ^ 4 ≤ 0
    omega
  refine ⟨divisor, shifted, quotient, ?_⟩
  change (if (crystalFreqKhz / rVal) >>> 4 ≤
      (pll fVco crystalFreqKhz rVal).fDiffShifted -
        (pll fVco crystalFreqKhz rVal).quotient *
          (pll fVco crystalFreqKhz rVal).divisor then _ else _) = _
  rw [covered, UInt32.sub_self]
  exact if_neg threshold

/-- The divider of the reference, and the words with it. -/
theorem words_cases
    (low : fLo.toNat < 4194304) :
    ∃ r ∈ [1, 2, 4],
      rVal (fVco fLo) crystalFreqKhz = UInt32.ofNat r ∧
        (crystalFreqKhz / rVal (fVco fLo) crystalFreqKhz).toNat = 16384 / r ∧
          (fVco fLo).toNat < 2 * (16384 / r) * 256 := by
  obtain ⟨small, _⟩ := vco_bounds low
  rw [← fVco_toNat low] at small
  rcases rVal_cases small with ⟨one, bound⟩ | ⟨two, bound⟩ | ⟨four, bound⟩
  · exact ⟨1, by decide, one, by rw [one]; rfl, bound⟩
  · exact ⟨2, by decide, two, by rw [two]; rfl, bound⟩
  · exact ⟨4, by decide, four, by rw [four]; rfl, bound⟩

/-- The words of a low frequency fit, and the remainder is their fraction. -/
theorem words_exact
    (low : fLo.toNat < 4194304) :
    Fits fLo (words fLo crystalFreqKhz) ∧
      ∃ r ∈ [1, 2, 4],
        rVal (fVco fLo) crystalFreqKhz = UInt32.ofNat r ∧
          2 * (16384 / r) *
              ((words fLo crystalFreqKhz).nVal.toNat * 2 ^ 20 +
                (words fLo crystalFreqKhz).kVal.toNat) =
            (fVco fLo).toNat * 2 ^ 20 := by
  obtain ⟨r, member, chosen, divided, bound⟩ := words_cases low
  have powers :
      ∀ r ∈ [1, 2, 4], 16384 / r = 16384 ∨ 16384 / r = 8192 ∨ 16384 / r = 4096 := by
    decide
  have power := powers r member
  obtain ⟨steps, difference⟩ := @pll_fDiff (fVco fLo) _ _ divided (by omega)
  obtain ⟨divisor, shifted, quotient, exact⟩ := @pll_kVal (fVco fLo) _ _ divided power
  obtain ⟨small, _⟩ := vco_bounds low
  have vco := fVco_toNat low
  have comp : (words fLo crystalFreqKhz).fComp.toNat = 16384 / r :=
    divided
  change (words fLo crystalFreqKhz).nVal.toNat = _ at steps
  change (words fLo crystalFreqKhz).fDiff.toNat = _ at difference
  change (words fLo crystalFreqKhz).divisor.toNat = _ at divisor
  change (words fLo crystalFreqKhz).fDiffShifted.toNat = _ at shifted
  change (words fLo crystalFreqKhz).quotient.toNat = _ at quotient
  change (words fLo crystalFreqKhz).kVal = (words fLo crystalFreqKhz).quotient at exact
  generalize isReference : 16384 / r = reference at *
  have rest : (fVco fLo).toNat % (2 * reference) < 2 * reference :=
    Nat.mod_lt _ (by omega)
  have whole := Nat.div_add_mod (fVco fLo).toNat (2 * reference)
  have few : (fVco fLo).toNat / (2 * reference) < 256 := by
    rw [Nat.div_lt_iff_lt_mul (by omega), Nat.mul_comm]
    exact bound
  have fraction :
      (fVco fLo).toNat % (2 * reference) * (2 ^ 20 / (2 * reference)) < 2 ^ 20 := by
    rcases power with rfl | rfl | rfl <;>
      omega
  refine ⟨⟨by omega, by decide, by decide, ?_, ?_, ?_, ?_, ?_, ?_, ?_⟩,
    r, member, chosen, ?_⟩
  · rw [comp, steps]
    exact Nat.mul_div_le _ _
  · rw [difference]
    change _ * 2 ^ 16 < 2 ^ 32
    omega
  · omega
  · rw [quotient, divisor, shifted]
    rcases power with rfl | rfl | rfl <;>
      omega
  · omega
  · rw [exact, quotient]
    exact fraction
  · omega
  · rw [isReference, exact, quotient, steps]
    clear isReference
    rcases power with rfl | rfl | rfl <;>
      omega

/-- The bits of the divider and the high part of a fraction do not overlap. -/
theorem data0x18_nibbles
    {rVal kVal : UInt32}
    (small : kVal.toNat < 2 ^ 20) :
    data0x18 rVal kVal >>> 4 = (if rVal = 1 then 0 else if rVal = 2 then 1 else 2) ∧
      (data0x18 rVal kVal &&& 0x0f).toNat = kVal.toNat / 2 ^ 16 := by
  have nibbles :
      ∀ high < 16, ∀ divider < 3,
        (UInt8.ofNat (divider * 16) + UInt8.ofNat high) >>> 4 = UInt8.ofNat divider ∧
          ((UInt8.ofNat (divider * 16) + UInt8.ofNat high) &&& 0x0f).toNat =
            high := by
    decide
  have high : (kVal >>> 16).toNat = kVal.toNat / 2 ^ 16 := by
    rw [UInt32.toNat_shiftRight, Nat.shiftRight_eq_div_pow]
    rfl
  have value : (kVal >>> 16).toUInt8 = UInt8.ofNat (kVal.toNat / 2 ^ 16) := by
    rw [← high]
    rfl
  have few : kVal.toNat / 2 ^ 16 < 16 := by
    omega
  unfold data0x18
  dsimp only
  rw [value]
  split_ifs
  · exact nibbles _ few 0 (by decide)
  · exact nibbles _ few 1 (by decide)
  · exact nibbles _ few 2 (by decide)

/-- Registers that hold the bytes of a low frequency make it. -/
theorem exact_of_written
    {registers : UInt8 → UInt8}
    (low : fLo.toNat < 4194304)
    (written :
      ∀ write ∈ pllWrites fLo crystalFreqKhz, registers write.1 = write.2) :
    Exact fLo registers := by
  obtain ⟨fits, r, member, chosen, frequency⟩ := words_exact low
  have first := written (0x18, _) List.mem_cons_self
  have second := written (0x1a, ((words fLo crystalFreqKhz).kVal >>> 8).toUInt8)
    (List.mem_cons_of_mem _ List.mem_cons_self)
  have third := written (0x1b, (words fLo crystalFreqKhz).kVal.toUInt8)
    (List.mem_cons_of_mem _ (List.mem_cons_of_mem _ List.mem_cons_self))
  have fourth := written (0x1c, (words fLo crystalFreqKhz).nVal.toUInt8)
    (List.mem_cons_of_mem _ (List.mem_cons_of_mem _ (List.mem_cons_of_mem _
      List.mem_cons_self)))
  dsimp only at first second third fourth
  obtain ⟨upper, lower⟩ :=
    @data0x18_nibbles (rVal (fVco fLo) crystalFreqKhz) _ fits.kVal
  have dividers :
      ∀ r ∈ [1, 2, 4],
        dividerOf
            (if UInt32.ofNat r = 1 then 0 else if UInt32.ofNat r = 2 then 1 else 2) =
          some r ∧
        (UInt32.ofNat r).toNat = r ∧ r ∣ 16384 ∧ r ≠ 0 := by
    decide
  obtain ⟨decoded, value, divides, positive⟩ := dividers r member
  have divider : decodedR registers = some r := by
    unfold decodedR
    rw [first, upper, chosen, decoded]
  have fraction : decodedK registers = (words fLo crystalFreqKhz).kVal.toNat := by
    have middle :
        ((words fLo crystalFreqKhz).kVal >>> 8).toNat =
          (words fLo crystalFreqKhz).kVal.toNat / 2 ^ 8 := by
      rw [UInt32.toNat_shiftRight, Nat.shiftRight_eq_div_pow]
      rfl
    unfold decodedK
    rw [first, second, third, lower, UInt32.toNat_toUInt8, UInt32.toNat_toUInt8, middle]
    omega
  have steps : decodedN registers = (words fLo crystalFreqKhz).nVal.toNat := by
    have byte := fits.nVal
    unfold decodedN
    rw [fourth, UInt32.toNat_toUInt8]
    omega
  refine ⟨?_, fraction, steps, r, member, divider, ?_, ?_, ?_⟩
  · rw [divider, chosen, value]
  · rw [fraction]
    exact fits.kVal
  · rw [steps]
    exact fits.nVal
  · have reference : ((16384 / r : Nat) : ℚ) = 16384 / r :=
      Nat.cast_div divides (Nat.cast_ne_zero.mpr positive)
    have scaled := congrArg (Nat.cast : Nat → ℚ) frequency
    push_cast [reference] at scaled
    rw [fraction, steps, ← fVco_toNat low]
    linarith

end Arithmetic

/-! ## The chip -/

/-- The registers of the PLL. -/
def pllRegisters : List UInt8 :=
  [0x18, 0x1a, 0x1b, 0x1c]

/-- The registers of the PLL are as they were. -/
def Kept (start chip : Chip) : Prop :=
  ∀ reg ∈ pllRegisters, chip.registers reg = start.registers reg

section Running

variable {before : Chip} {writes : List (UInt8 × UInt8)}

theorem i2cWrites_wrote
    (writes : List (UInt8 × UInt8)) :
    Completes (i2cWrites writes) before (Chip.Wrote writes before) := by
  induction writes generalizing before with
  | nil =>
      exact Completes.pure .refl
  | cons first rest inductionHypothesis =>
      apply (writeByte_wrote first.1 first.2).bind
      intro written middle wrote
      apply inductionHypothesis.bind
      intro others after later
      exact Completes.pure (wrote.trans later)

/-- Writes to other registers leave those of the PLL alone. -/
theorem i2cWrites_kept
    (apart : ∀ write ∈ writes, write.1 ∉ pllRegisters) :
    Completes (i2cWrites writes) before (Kept before) := by
  obtain ⟨answer, after, yields, wrote⟩ := i2cWrites_wrote writes
  refine ⟨answer, after, yields, fun reg member => ?_⟩
  rcases wrote reg with same | written
  · exact same
  · exact absurd member (apart _ written)

theorem Kept.trans
    {middle after : Chip}
    (first : Kept before middle)
    (second : Kept middle after) :
    Kept before after :=
  fun reg member => (second reg member).trans (first reg member)

theorem calibrateFilter_kept
    (rounds : Nat)
    (calMon : UInt8) :
    Completes (calibrateFilter rounds calMon) before (Kept before) := by
  induction rounds generalizing before calMon with
  | zero =>
      exact Completes.pure fun _ _ => rfl
  | succ rounds inductionHypothesis =>
      apply (readByte_wrote 0x2f).bind
      intro read middle same
      have kept : Kept before middle :=
        fun reg _ => (same reg).resolve_right List.not_mem_nil
      dsimp only
      split
      · apply (i2cWrites_kept (by simp [pllRegisters])).bind
        intro written rewritten later
        apply (inductionHypothesis _).bind
        intro others after last
        exact Completes.pure ((kept.trans later).trans last)
      · exact Completes.pure kept

theorem setFilter_kept
    (filterBw : UInt8)
    (freqXtal : UInt32) :
    Completes (setFilter filterBw freqXtal) before (Kept before) := by
  have apart : ∀ write ∈ filterWrites filterBw freqXtal, write.1 ∉ pllRegisters := by
    unfold filterWrites pllRegisters
    split_ifs <;>
      simp
  apply (i2cWrites_kept apart).bind
  intro chosen first kept
  apply (calibrateFilter_kept 5 0).bind
  intro calibrated second keptThen
  apply (i2cWrites_kept (by simp [pllRegisters])).bind
  intro ended after keptLast
  exact Completes.pure ((kept.trans keptThen).trans keptLast)

theorem bandWrites_apart
    (fLo : UInt32)
    (band : Band) :
    ∀ write ∈ bandWrites fLo band, write.1 ∉ pllRegisters := by
  unfold pllRegisters
  cases band with
  | uhf =>
      unfold bandWrites
      split_ifs <;>
        simp
  | l =>
      simp [bandWrites]
  | vhf =>
      simp [bandWrites]

/-- Each register of the PLL holds what it held, or its new byte. -/
def Loads (fLo : UInt32) (start chip : Chip) : Prop :=
  ∀ reg ∈ pllRegisters,
    chip.registers reg = start.registers reg ∨
      (reg, chip.registers reg) ∈ pllWrites fLo crystalFreqKhz

/-- Whatever transfers fail, no other byte gets into the registers of the PLL. -/
theorem setFreq_loads
    (fLo : UInt32) :
    Completes (setFreq fLo crystalFreqKhz) before (Loads fLo before) := by
  apply (i2cWrites_kept (bandWrites_apart fLo _)).bind
  intro prepared first kept
  apply (setFilter_kept _ _).bind
  intro filtered second keptFiltered
  apply (i2cWrites_kept (by simp [pllRegisters])).bind
  intro divided third keptDivided
  apply (i2cWrites_kept (by simp [pllRegisters])).bind
  intro selected fourth keptSelected
  apply (i2cWrites_wrote _).bind
  intro loaded fifth wrote
  have capacitor :
      ∀ write ∈ (if bandOf fLo = .uhf then
          [((0x2d : UInt8), if fLo ≤ 794000 then (0x9f : UInt8) else 0x8f)]
        else []), write.1 ∉ pllRegisters := by
    split_ifs <;>
      simp [pllRegisters]
  apply (i2cWrites_kept capacitor).bind
  intro capped after keptCapped
  refine Completes.pure fun reg member => ?_
  have keptBefore :=
    ((kept.trans keptFiltered).trans keptDivided).trans keptSelected reg member
  rw [keptCapped reg member, ← keptBefore]
  exact wrote reg

/-- On an answering chip each register holds the last byte for it. -/
theorem i2cWrites_answered
    (answering : before.Answering)
    (writes : List (UInt8 × UInt8)) :
    Returns (i2cWrites writes) before true (Chip.Loaded writes before) := by
  induction writes generalizing before with
  | nil =>
      exact Returns.pure (.nil answering)
  | cons first rest inductionHypothesis =>
      refine Returns.bind ⟨_, writeByte_answered answering first.1 first.2, rfl⟩ ?_
      rintro _ rfl
      apply (@inductionHypothesis (before.passed.written _ _) answering).bind
      intro after later
      exact Returns.pure (.cons rfl later)

theorem i2cWrites_true
    (answering : before.Answering)
    (writes : List (UInt8 × UInt8)) :
    Returns (i2cWrites writes) before true Chip.Answering :=
  (i2cWrites_answered answering writes).mono fun _ loaded => loaded.answering

theorem calibrateFilter_true
    (answering : before.Answering)
    (rounds : Nat)
    (calMon : UInt8) :
    Returns (calibrateFilter rounds calMon) before true Chip.Answering := by
  induction rounds generalizing before calMon with
  | zero =>
      exact Returns.pure answering
  | succ rounds inductionHypothesis =>
      refine Returns.bind ⟨_, readByte_answered answering 0x2f, rfl⟩ ?_
      rintro _ rfl
      dsimp only
      split
      · apply (@i2cWrites_true before.passed.passed answering _).bind
        intro rewritten answering
        apply (inductionHypothesis answering _).bind
        intro after answering
        exact Returns.pure answering
      · exact Returns.pure answering

theorem setFilter_true
    (answering : before.Answering)
    (filterBw : UInt8)
    (freqXtal : UInt32) :
    Returns (setFilter filterBw freqXtal) before true Chip.Answering := by
  apply (i2cWrites_true answering _).bind
  intro first answering
  apply (calibrateFilter_true answering 5 0).bind
  intro second answering
  apply (i2cWrites_true answering _).bind
  intro after answering
  exact Returns.pure answering

/-- On an answering chip the registers of the PLL hold the new bytes. -/
theorem setFreq_true
    (answering : before.Answering)
    (fLo : UInt32) :
    Returns (setFreq fLo crystalFreqKhz) before true (fun after =>
      ∀ write ∈ pllWrites fLo crystalFreqKhz,
        after.registers write.1 = write.2) := by
  apply (i2cWrites_true answering _).bind
  intro first answering
  apply (setFilter_true answering _ _).bind
  intro second answering
  apply (i2cWrites_true answering _).bind
  intro third answering
  apply (i2cWrites_true answering _).bind
  intro fourth answering
  apply (i2cWrites_answered answering _).bind
  rintro fifth ⟨answering, registers⟩
  apply (i2cWrites_answered answering _).bind
  rintro after ⟨_, capped⟩
  refine Returns.pure fun write member => ?_
  rw [capped, registers]
  unfold pllWrites at member ⊢
  simp only [List.mem_cons, List.not_mem_nil, or_false] at member
  split_ifs <;>
    rcases member with rfl | rfl | rfl | rfl <;>
    simp [Function.update]

end Running

/--
With a rounded frequency below 2^22 kHz: no operation on the words wraps, the bytes
for the PLL make the frequency of the VCO exactly, no failing transfer lets another
byte into their registers, and on an answering chip they are all written.
-/
theorem setRfFreqHz_exact
    (rfFreqHz : UInt64)
    (low : (rfFreqHz.toNat + 500) / 1000 < 4194304) :
    (rfFreqKhz rfFreqHz).toNat = (rfFreqHz.toNat + 500) / 1000 ∧
      Fits (rfFreqKhz rfFreqHz) (words (rfFreqKhz rfFreqHz) crystalFreqKhz) ∧
      (∀ registers : UInt8 → UInt8,
        (∀ write ∈ pllWrites (rfFreqKhz rfFreqHz) crystalFreqKhz,
          registers write.1 = write.2) →
        Exact (rfFreqKhz rfFreqHz) registers) ∧
      ∀ before : Chip,
        Completes (setRfFreqHz rfFreqHz) before (Loads (rfFreqKhz rfFreqHz) before) ∧
          (before.Answering →
            Returns (setRfFreqHz rfFreqHz) before 0 (fun after =>
              Exact (rfFreqKhz rfFreqHz) after.registers)) := by
  have kilohertz : (rfFreqKhz rfFreqHz).toNat = (rfFreqHz.toNat + 500) / 1000 := by
    have sum : (rfFreqHz + 500).toNat = rfFreqHz.toNat + 500 := by
      rw [UInt64.toNat_add]
      exact Nat.mod_eq_of_lt (by
        change rfFreqHz.toNat + 500 < 2 ^ 64
        omega)
    unfold rfFreqKhz
    rw [UInt64.toNat_toUInt32, UInt64.toNat_div, sum]
    exact Nat.mod_eq_of_lt (low.trans (by decide))
  rw [← kilohertz] at low
  refine ⟨kilohertz, (words_exact low).1, fun registers => exact_of_written low,
    fun before => ⟨?_, fun answering => ?_⟩⟩
  · apply (setFreq_loads _).bind
    intro result after loads
    split <;>
      exact Completes.pure loads
  · apply (setFreq_true answering _).bind
    intro after written
    exact Returns.pure (exact_of_written low written)

/-- The tuner is set to 100 MHz. -/
theorem setRfFreqHz_exact_hundred :
    Returns (setRfFreqHz 100000000) Chip.cleared 0 (fun after =>
      Exact 100000 after.registers) :=
  ((setRfFreqHz_exact 100000000 (by decide)).2.2.2 Chip.cleared).2
    Chip.cleared_answering

end LibRtlSdr.Fc2580
