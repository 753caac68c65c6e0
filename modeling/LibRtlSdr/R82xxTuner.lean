import LibRtlSdr.R82xxRegisters

namespace LibRtlSdr.R82xx

open DriverProgram MaskedWrites

/-!
# The R82xx tuner

The functions of `tuner_r82xx.c` on the registers of the chip, with the errors
of their transfers.  `r820t_init` sets `max_i2c_msg_len` to 8 and
`use_predetect` to 0, so that they are constants here.
-/

/-- One row of `freq_ranges`. -/
structure FreqRange where
  freq : UInt32
  openD : Byte
  rfMuxPloy : Byte
  tfC : Byte
  xtalCap20p : Byte
  xtalCap10p : Byte
  xtalCap0p : Byte

/-- `freq_ranges`. -/
def freqRanges : List FreqRange :=
  [⟨0, 0x08, 0x02, 0xdf, 0x02, 0x01, 0x00⟩,
    ⟨50, 0x08, 0x02, 0xbe, 0x02, 0x01, 0x00⟩,
    ⟨55, 0x08, 0x02, 0x8b, 0x02, 0x01, 0x00⟩,
    ⟨60, 0x08, 0x02, 0x7b, 0x02, 0x01, 0x00⟩,
    ⟨65, 0x08, 0x02, 0x69, 0x02, 0x01, 0x00⟩,
    ⟨70, 0x08, 0x02, 0x58, 0x02, 0x01, 0x00⟩,
    ⟨75, 0x00, 0x02, 0x44, 0x02, 0x01, 0x00⟩,
    ⟨80, 0x00, 0x02, 0x44, 0x02, 0x01, 0x00⟩,
    ⟨90, 0x00, 0x02, 0x34, 0x01, 0x01, 0x00⟩,
    ⟨100, 0x00, 0x02, 0x34, 0x01, 0x01, 0x00⟩,
    ⟨110, 0x00, 0x02, 0x24, 0x01, 0x01, 0x00⟩,
    ⟨120, 0x00, 0x02, 0x24, 0x01, 0x01, 0x00⟩,
    ⟨140, 0x00, 0x02, 0x14, 0x01, 0x01, 0x00⟩,
    ⟨180, 0x00, 0x02, 0x13, 0x00, 0x00, 0x00⟩,
    ⟨220, 0x00, 0x02, 0x13, 0x00, 0x00, 0x00⟩,
    ⟨250, 0x00, 0x02, 0x11, 0x00, 0x00, 0x00⟩,
    ⟨280, 0x00, 0x02, 0x00, 0x00, 0x00, 0x00⟩,
    ⟨310, 0x00, 0x41, 0x00, 0x00, 0x00, 0x00⟩,
    ⟨450, 0x00, 0x41, 0x00, 0x00, 0x00, 0x00⟩,
    ⟨588, 0x00, 0x40, 0x00, 0x00, 0x00, 0x00⟩,
    ⟨650, 0x00, 0x40, 0x00, 0x00, 0x00, 0x00⟩]

/-- The range whose successor starts above the frequency, or the last one. -/
def rangeFor (freq : UInt32) (first : FreqRange) : List FreqRange → FreqRange
  | [] => first
  | next :: later =>
      if freq < next.freq then first else rangeFor freq next later

/-- The crystal capacitor bits of `r82xx_set_mux`. -/
def FreqRange.xtalCap (range : FreqRange) : XtalCap → Byte
  | .lowCap30p => range.xtalCap20p ||| 0x08
  | .lowCap20p => range.xtalCap20p ||| 0x08
  | .lowCap10p => range.xtalCap10p ||| 0x08
  | .highCap0p => range.xtalCap0p ||| 0x00
  | .lowCap0p => range.xtalCap0p ||| 0x08

/-- `r82xx_set_mux`. -/
def setMux (freq : UInt32) : Checked Priv Unit := do
  let range :=
    rangeFor (freq / 1000000) (freqRanges.head (by decide)) freqRanges.tail
  writeMasks
    [ -- Open Drain
      ⟨0x17, range.openD, 0x08⟩,
      -- RF_MUX,Polymux
      ⟨0x1a, range.rfMuxPloy, 0xc3⟩]
  -- TF BAND
  writeReg 0x1b range.tfC
  -- XTAL CAP & Drive
  let priv ← get
  writeMasks
    [⟨0x10, range.xtalCap priv.xtalCapSel, 0x0b⟩,
      ⟨0x08, 0x00, 0x3f⟩,
      ⟨0x09, 0x00, 0x3f⟩]

/-- The divider loop of `r82xx_set_pll`: `mix_div` and `div_num`. -/
def mixDivider (freqKhz : UInt32) : UInt32 × Byte :=
  (([(2, 0), (4, 1), (8, 2), (16, 3), (32, 4), (64, 5)] :
      List (UInt32 × Byte)).find?
    (fun divider =>
      1770000 ≤ freqKhz * divider.1 ∧ freqKhz * divider.1 < 3540000)).getD
    (128, 0)

/-- `vco_power_ref`. -/
def vcoPowerRef : Chip → Byte
  | .r820t => 2
  | .r828d => 1

/-- `div_num`, corrected by the fine tune bits read of the chip. -/
def tunedDivNum (divNum vcoFineTune powerRef : Byte) : Byte :=
  if powerRef < vcoFineTune then divNum - 1
  else if vcoFineTune < powerRef then divNum + 1
  else divNum

/-- `vco_freq`. -/
def vcoFreq (freq : UInt32) : UInt64 :=
  freq.toUInt64 * (mixDivider ((freq + 500) / 1000)).1.toUInt64

/-- `nint`, for a reference that is not zero. -/
def pllNint (freq pllRef : UInt32) : Byte :=
  BitVec.ofNat 8 (vcoFreq freq / (2 * pllRef).toUInt64).toNat

/-- `vco_fra`, for a reference that is not zero. -/
def vcoFra (freq pllRef : UInt32) : UInt32 :=
  ((vcoFreq freq -
      (2 * pllRef * UInt32.ofNat (pllNint freq pllRef).toNat).toUInt64) /
    1000).toUInt32

/-- The limit of `nint` of a chip. -/
def nintLimit (chip : Chip) : Nat :=
  128 / (vcoPowerRef chip).toNat - 1

/-- The byte `ni + (si << 6)` for register 0x14. -/
def nintByte (nint : Byte) : Byte :=
  let ni := BitVec.ofInt 8 (((nint.toNat : Int) - 13).tdiv 4)
  let si := BitVec.ofInt 8 ((nint.toNat : Int) - 4 * ni.toNat - 13)
  ni + si <<< 6

/--
The loop of the SDM calculator.  The count is that of the shifts left for
`n_sdm`, which a last one shifts out of its 16 bits.
-/
def sdmLoop (pllRefKhz : UInt32) :
    Nat → UInt32 → UInt16 → Checked Priv UInt16
  | 0, fra, sdm =>
      if 1 < fra then Checked.fault .divisionByZero else pure sdm
  | shifts + 1, fra, sdm =>
      let nSdm : UInt32 := 0x8000 >>> UInt32.ofNat shifts
      if 1 < fra then
        if 2 * pllRefKhz / nSdm < fra then
          let sdm := sdm + (32768 / (nSdm / 2)).toUInt16
          let fra := fra - 2 * pllRefKhz / nSdm
          if shifts = 0 then pure sdm else sdmLoop pllRefKhz shifts fra sdm
        else
          sdmLoop pllRefKhz shifts fra sdm
      else
        pure sdm

/-- The lock bit of what was read from register 0 on. -/
def pllLocked (data : Nat → Byte) : Bool :=
  data 2 &&& 0x40 != 0

/-- Has the PLL locked, at the second look with a higher VCO current? -/
def waitForLock : Checked Priv Bool := do
  let data ← read 0x00
  if pllLocked data then
    return true
  else
    -- RTL-SDR Blog Hack: Set max current
    writeMasks [⟨0x12, 0x06, 0xff⟩]
    let data ← read 0x00
    return pllLocked data

/-- `r82xx_set_pll`. -/
def setPll (freq : UInt32) : Checked Priv Unit := do
  let priv ← get
  let pllRef := priv.xtal
  let pllRefKhz := (pllRef + 500) / 1000
  writeMasks
    [⟨0x10, 0x00, 0x10⟩,
      -- set pll autotune = 128kHz
      ⟨0x1a, 0x00, 0x0c⟩,
      -- RTL-SDR Blog Modification: Set VCO current to MAX
      ⟨0x12, 0x06, 0xff⟩]
  let data ← read 0x00
  let divNum :=
    tunedDivNum (mixDivider ((freq + 500) / 1000)).2
      ((data 4 &&& 0x30) >>> 4) (vcoPowerRef priv.rafaelChip)
  writeMasks [⟨0x10, divNum <<< 5, 0xe0⟩]
  if 2 * pllRef = 0 then
    Checked.fault .divisionByZero
  else if nintLimit priv.rafaelChip < (pllNint freq pllRef).toNat then
    throw (-1)
  else
    writeReg 0x14 (nintByte (pllNint freq pllRef))
    -- pw_sdm
    writeMasks [⟨0x12, if vcoFra freq pllRef = 0 then 0x08 else 0x00, 0x08⟩]
    let sdm ← sdmLoop pllRefKhz 15 (vcoFra freq pllRef) 0
    writeReg 0x16 (BitVec.ofNat 8 (sdm >>> 8).toNat)
    writeReg 0x15 (BitVec.ofNat 8 (sdm &&& 0xff).toNat)
    if ← waitForLock then
      modify fun priv => { priv with hasLock := true }
      -- set pll autotune = 8kHz
      writeMasks [⟨0x1a, 0x08, 0x08⟩]
    else
      modify fun priv => { priv with hasLock := false }

/-- `enum r82xx_tuner_type`. -/
inductive TunerUse where
  | radio
  | analogTv
  | digitalTv
  deriving Repr, DecidableEq

/-- `enum r82xx_delivery_system`. -/
inductive DeliverySystem where
  | undefined
  | dvbt
  | dvbt2
  | isdbt
  deriving Repr, DecidableEq

/-- The values that `r82xx_sysfreq_sel` chooses by delivery system. -/
structure SysfreqValues where
  mixerTop : Byte
  lnaTop : Byte
  cpCur : Byte
  lnaVthL : Byte
  mixerVthL : Byte
  airCable1In : Byte
  cable2In : Byte
  lnaDischarge : Byte
  filterCur : Byte

/-- The choice of `r82xx_sysfreq_sel`. -/
def sysfreqValues (freq : UInt32) : DeliverySystem → SysfreqValues
  | .dvbt =>
      if freq = 506000000 ∨ freq = 666000000 ∨ freq = 818000000 then
        ⟨0x14, 0xe5, 0x28, 0x53, 0x75, 0x00, 0x00, 14, 0x40⟩
      else
        ⟨0x24, 0xe5, 0x38, 0x53, 0x75, 0x00, 0x00, 14, 0x40⟩
  | .isdbt => ⟨0x24, 0xe5, 0x38, 0x75, 0x75, 0x00, 0x00, 14, 0x40⟩
  | _ => ⟨0x24, 0xe5, 0x38, 0x53, 0x75, 0x00, 0x00, 14, 0x40⟩

/-- `r82xx_sysfreq_sel`. -/
def sysfreqSel
    (freq : UInt32)
    (type : TunerUse)
    (delsys : DeliverySystem) :
    Checked Priv Unit := do
  let values := sysfreqValues freq delsys
  writeMasks
    [⟨0x1d, values.lnaTop, 0xc7⟩,
      ⟨0x1c, values.mixerTop, 0xf8⟩]
  writeReg 0x0d values.lnaVthL
  writeReg 0x0e values.mixerVthL
  modify fun priv => { priv with input := values.airCable1In }
  writeMasks
    [ -- Air-IN only for Astrometa
      ⟨0x05, values.airCable1In, 0x60⟩,
      ⟨0x06, values.cable2In, 0x08⟩,
      ⟨0x11, values.cpCur, 0x38⟩,
      -- RTL-SDR Blog Hack. Improve L-band performance by setting PLL drop out to 2.0v
      ⟨0x17, 0xa0, 0x30⟩,
      ⟨0x0a, values.filterCur, 0x60⟩]
  if type ≠ .analogTv then
    writeMasks
      [ -- LNA TOP: lowest
        ⟨0x1d, 0x00, 0x38⟩,
        -- 0: normal mode
        ⟨0x1c, 0x00, 0x04⟩,
        -- 0: PRE_DECT off
        ⟨0x06, 0x00, 0x40⟩,
        -- agc clk 250hz
        ⟨0x1a, 0x30, 0x30⟩,
        -- write LNA TOP = 3
        ⟨0x1d, 0x18, 0x38⟩,
        -- write discharge mode
        ⟨0x1c, values.mixerTop, 0x04⟩,
        -- LNA discharge current
        ⟨0x1e, values.lnaDischarge, 0x1f⟩,
        -- agc clk 60hz
        ⟨0x1a, 0x20, 0x30⟩]
  else
    writeMasks
      [ -- PRE_DECT off
        ⟨0x06, 0x00, 0x40⟩,
        -- write LNA TOP
        ⟨0x1d, values.lnaTop, 0x38⟩,
        -- write discharge mode
        ⟨0x1c, values.mixerTop, 0x04⟩,
        -- LNA discharge current
        ⟨0x1e, values.lnaDischarge, 0x1f⟩,
        -- agc clk 1Khz, external det1 cap 1u
        ⟨0x1a, 0x00, 0x30⟩,
        ⟨0x10, 0x00, 0x04⟩]

/-- `r82xx_init_array`, for the registers from 0x05 on; the rest are zero. -/
def initArray : List Byte :=
  [0x83, 0x32, 0x75, 0xc0, 0x40, 0xd6, 0x6c, 0xf5, 0x63, 0x75, 0x68,
    0x6c, 0x83, 0x80, 0x00, 0x0f, 0x00, 0xc0, 0x30, 0x48, 0xcc, 0x60,
    0x00, 0x54, 0xae, 0x4a, 0xc0, 0x00, 0x00, 0x00]

/--
One round of the filter calibration: the code that the chip reports, or nothing
when the PLL has not locked.
-/
def calibrationRound : Checked Priv (Option Byte) := do
  writeMasks
    [ -- Set filt_cap
      ⟨0x0b, 0x6b, 0x60⟩,
      -- set cali clk =on
      ⟨0x0f, 0x04, 0x04⟩,
      -- X'tal cap 0pF for PLL
      ⟨0x10, 0x00, 0x03⟩]
  setPll (56000 * 1000)
  let priv ← get
  if priv.hasLock then
    writeMasks
      [ -- Start Trigger
        ⟨0x0b, 0x10, 0x10⟩,
        -- Stop Trigger
        ⟨0x0b, 0x00, 0x10⟩,
        -- set cali clk =off
        ⟨0x0f, 0x00, 0x04⟩]
    let data ← read 0x00
    modify fun priv => { priv with filCalCode := data 4 &&& 0x0f }
    return some (data 4 &&& 0x0f)
  else
    return none

/-- The calibration loop; it answers whether a round has left the function. -/
def calibrate : Checked Priv Bool := do
  match ← calibrationRound with
  | none => return false
  | some code =>
      if code ≠ 0 ∧ code ≠ 0x0f then
        return true
      else
        match ← calibrationRound with
        | none => return false
        | some _ => return true

/-- The rest of `r82xx_set_tv_standard`, from the filter calibration on. -/
def finishTvStandard : Checked Priv Unit := do
  if ← calibrate then
    -- narrowest
    modify fun priv =>
      if priv.filCalCode = 0x0f then { priv with filCalCode := 0 } else priv
    let priv ← get
    writeMasks
      [⟨0x0a, 0x10 ||| priv.filCalCode, 0x1f⟩,
        -- Set BW, Filter_gain, & HP corner
        ⟨0x0b, 0x6b, 0xef⟩,
        -- Set Img_R
        ⟨0x07, 0x00, 0x80⟩,
        -- Set filt_3dB, V6MHz
        ⟨0x06, 0x10, 0x30⟩,
        -- channel filter extension
        ⟨0x1e, 0x60, 0x60⟩,
        -- Loop through
        ⟨0x05, 0x01, 0x80⟩,
        -- Loop through attenuation
        ⟨0x1f, 0x00, 0x80⟩,
        -- filter extension widest
        ⟨0x0f, 0x00, 0x80⟩,
        -- RF poly filter current
        ⟨0x19, 0x60, 0x60⟩]

/-- `r82xx_set_tv_standard`; it always calibrates the filter. -/
def setTvStandard (type : TunerUse) : Checked Priv Unit := do
  -- Initialize the shadow registers
  modify (shadowStore 0x05 initArray)
  writeMasks
    [ -- Init Flag & Xtal_check Result (inits VGA gain, needed?)
      ⟨0x0c, 0x00, 0x0f⟩,
      -- version
      ⟨0x13, 49, 0x3f⟩]
  -- for LT Gain test
  writeMasks (if type ≠ .analogTv then [⟨0x1d, 0x00, 0x38⟩] else [])
  modify fun priv => { priv with intFreq := 3570 * 1000 }
  finishTvStandard

/-- `r82xx_lna_gain_steps`. -/
def lnaGainSteps : List Int :=
  [0, 9, 13, 40, 38, 13, 31, 22, 26, 31, 26, 14, 19, 5, 35, 13]

/-- `r82xx_mixer_gain_steps`. -/
def mixerGainSteps : List Int :=
  [0, 5, 10, 10, 19, 9, 10, 25, 17, 10, 8, 16, 13, 6, 3, -8]

/-- The gain loop with its rounds left: the LNA and the mixer index. -/
def gainLoop (gain : Int) : Nat → Int → Nat → Nat → Nat × Nat
  | 0, _, lnaIndex, mixIndex => (lnaIndex, mixIndex)
  | rounds + 1, totalGain, lnaIndex, mixIndex =>
      if gain ≤ totalGain then
        (lnaIndex, mixIndex)
      else
        let totalGain := totalGain + lnaGainSteps.getD (lnaIndex + 1) 0
        if gain ≤ totalGain then
          (lnaIndex + 1, mixIndex)
        else
          gainLoop gain rounds
            (totalGain + mixerGainSteps.getD (mixIndex + 1) 0)
            (lnaIndex + 1) (mixIndex + 1)

/-- `r82xx_set_gain`. -/
def setGain (setManualGain : Bool) (gain : Int) : Checked Priv Unit := do
  if setManualGain then
    writeMasks
      [ -- LNA auto off
        ⟨0x05, 0x10, 0x10⟩,
        -- Mixer auto off
        ⟨0x07, 0x00, 0x10⟩]
    let _ ← read 0x00
    let indices := gainLoop gain 15 0 0 0
    writeMasks
      [ -- set fixed VGA gain for now (16.3 dB)
        ⟨0x0c, 0x08, 0x9f⟩,
        -- set LNA gain
        ⟨0x05, BitVec.ofNat 8 indices.1, 0x0f⟩,
        -- set Mixer gain
        ⟨0x07, BitVec.ofNat 8 indices.2, 0x0f⟩]
  else
    writeMasks
      [ -- LNA
        ⟨0x05, 0x00, 0x10⟩,
        -- Mixer
        ⟨0x07, 0x10, 0x10⟩,
        -- set fixed VGA gain for now (26.5 dB)
        ⟨0x0c, 0x0b, 0x9f⟩]

/-- `r82xx_if_low_pass_bw_table`. -/
def ifLowPassBwTable : List Int :=
  [1700000, 1600000, 1550000, 1450000, 1200000, 900000, 700000, 550000,
    450000, 350000]

/-- The low-pass filter that `r82xx_set_bandwidth` finds for the remaining width. -/
def lowPassIndex (bw : Int) : Nat :=
  ifLowPassBwTable.findIdx (fun width => decide (width < bw)) - 1

/-- The filter registers 0x0a and 0x0b and `int_freq` for a bandwidth. -/
structure BandwidthSetting where
  reg0a : Byte
  reg0b : Byte
  intFreq : UInt32
  deriving Repr, DecidableEq

/-- The choice of `r82xx_set_bandwidth`. -/
def bandwidthSetting (bw : Int) : BandwidthSetting :=
  if bw > 7000000 then
    -- BW: 8 MHz
    ⟨0x10, 0x0b, 4570000⟩
  else if bw > 6000000 then
    -- BW: 7 MHz
    ⟨0x10, 0x2a, 4570000⟩
  else if bw > 1700000 + 350000 + 380000 then
    -- BW: 6 MHz
    ⟨0x10, 0x6b, 3570000⟩
  else
    let hp2 := bw > 1700000 + 350000
    let bw2 := if hp2 then bw - 380000 else bw
    let hp1 := bw2 > 1700000
    let bw1 := if hp1 then bw2 - 350000 else bw2
    let added : Int :=
      (if hp2 then 380000 else 0) + (if hp1 then 350000 else 0)
    let index := lowPassIndex bw1
    let realBw := added + ifLowPassBwTable.getD index 0
    ⟨0x00,
      0x80 ||| (if hp2 then 0x00 else 0x20) |||
        (if hp1 then 0x00 else 0x40) ||| (15 - BitVec.ofNat 8 index),
      UInt32.ofInt (2300000 + added - realBw.tdiv 2)⟩

/-- `r82xx_set_bandwidth`; without an error it returns `int_freq`. -/
def setBandwidth (bw : Int) : Checked Priv UInt32 := do
  let setting := bandwidthSetting bw
  modify fun priv => { priv with intFreq := setting.intFreq }
  writeMasks
    [⟨0x0a, setting.reg0a, 0x10⟩,
      ⟨0x0b, setting.reg0b, 0xef⟩]
  let priv ← get
  return priv.intFreq

/-- The inputs of the Blog V4: `HF`, `VHF` and `UHF`. -/
def blogV4Band (freq : UInt32) : Byte :=
  if freq ≤ 28800000 then 1
  else if freq < 250000000 then 2
  else 3

/-- The writes that switch between the inputs of the Blog V4. -/
def blogV4Inputs (band : Byte) : List (MaskedWrite Nat 8) :=
  [ -- activate cable 2 (HF input)
    ⟨0x06, if band = 1 then 0x08 else 0x00, 0x08⟩,
    -- activate cable 1 (VHF input)
    ⟨0x05, if band = 2 then 0x40 else 0x00, 0x40⟩,
    -- activate air_in (UHF input)
    ⟨0x05, if band = 3 then 0x00 else 0x20, 0x20⟩]

/-- The notch filter bit of the Blog V4. -/
def blogV4OpenD (freq : UInt32) : Byte :=
  if freq ≤ 2200000 ∨ (85000000 ≤ freq ∧ freq ≤ 112000000) ∨
      (172000000 ≤ freq ∧ freq ≤ 242000000) then
    0x00
  else
    0x08

/-- `upconvert_freq`. -/
def upconvertFreq (blogV4 : Bool) (freq : UInt32) : UInt32 :=
  if blogV4 ∧ freq < 28800000 then freq + 28800000 else freq

/-- The inputs 'Cable1' and 'Air-In' of a standard R828D dongle. -/
def airCable1In (freq : UInt32) : Byte :=
  if 345000000 < freq then 0x00 else 0x60

/-- Switch between the inputs, once the PLL has locked. -/
def selectInput (freq : UInt32) : Checked Priv Unit := do
  let priv ← get
  if priv.blogV4 then
    writeMasks [⟨0x17, blogV4OpenD freq, 0x08⟩]
    if blogV4Band freq ≠ priv.input then
      modify fun priv => { priv with input := blogV4Band freq }
      writeMasks (blogV4Inputs (blogV4Band freq))
  else if priv.rafaelChip = .r828d ∧ airCable1In freq ≠ priv.input then
    modify fun priv => { priv with input := airCable1In freq }
    writeMasks [⟨0x05, airCable1In freq, 0x60⟩]

/-- `r82xx_set_freq`. -/
def setFreq (freq : UInt32) : Checked Priv Unit := do
  let priv ← get
  let loFreq := upconvertFreq priv.blogV4 freq + priv.intFreq
  setMux loFreq
  setPll loFreq
  let priv ← get
  if priv.hasLock then
    selectInput freq

/-- The registers that `r82xx_standby` writes. -/
def standbyWrites : List (Nat × Byte) :=
  [(0x06, 0xb1), (0x05, 0xa0), (0x07, 0x3a), (0x08, 0x40), (0x09, 0xc0),
    (0x0a, 0x36), (0x0c, 0x35), (0x0f, 0x68), (0x11, 0x03), (0x17, 0xf4),
    (0x19, 0x0c)]

/-- `r82xx_standby`. -/
def standby : Checked Priv Unit := do
  let priv ← get
  -- If device was not initialized yet, don't need to standby
  if priv.initDone then
    writeRegs standbyWrites

/-- `r82xx_init`. -/
def init : Checked Priv Unit := do
  -- TODO: R828D might need r82xx_xtal_check()
  modify fun priv => { priv with xtalCapSel := .highCap0p }
  -- Initialize registers; the result is overwritten
  let _ ← (write 0x05 initArray).outcome
  setTvStandard .digitalTv
  let selected ← (sysfreqSel 0 .digitalTv .dvbt).outcome
  modify fun priv => { priv with initDone := true }
  match selected with
  | .error code => throw code
  | .ok _ => return ()

end LibRtlSdr.R82xx
