import LibRtlSdr.ByteChip

namespace LibRtlSdr

open DriverProgram ByteChip

/-!
# The FC0012 and FC0013 tuners

`tuner_fc0012.c` and `tuner_fc0013.c` compute the PLL in the same way, from
tables of dividers of their own; what they share comes first, in the namespace
of both.
-/

namespace FcTuner

/-- `fc0012_writereg` and `fc0013_writereg`. -/
def writereg (reg val : UInt8) : Checked Chip Unit := do
  if ← writeByte reg val then
    return ()
  else
    throw (-1)

/-- `fc0012_readreg` and `fc0013_readreg`. -/
def readreg (reg : UInt8) : Checked Chip UInt8 := do
  match ← readByte reg with
  | some val => return val
  | none => throw (-1)

/-- Writes in a row, up to the first that fails. -/
def writeregs : List (UInt8 × UInt8) → Checked Chip Unit
  | [] => pure ()
  | first :: rest => do
      writereg first.1 first.2
      writeregs rest

/-- A frequency divider: `multi`, and the registers 5 and 6 for it. -/
structure Divider where
  multi : UInt8
  reg5 : UInt8
  reg6 : UInt8

/-- `f_vco`; the product is one of 32 bits. -/
def fVco (freq : UInt32) (multi : UInt8) : UInt64 :=
  (freq * multi.toUInt32).toUInt64

/-- `xdiv`, for a clock that is not zero. -/
def xdivFor (fVco : UInt64) (xtalFreqDiv2 : UInt32) : UInt16 :=
  let xdiv := (fVco / xtalFreqDiv2.toUInt64).toUInt16
  if (xtalFreqDiv2 / 2).toUInt64 ≤
      fVco - (xdiv.toUInt32 * xtalFreqDiv2).toUInt64 then
    xdiv + 1
  else
    xdiv

/-- The registers 1 and 2, `FA` and `FP`. -/
def cycles (xdiv : UInt16) : UInt8 × UInt8 :=
  let pm := (xdiv / 8).toUInt8
  let am := (xdiv - 8 * pm.toUInt16).toUInt8
  let (am, pm) := if am < 2 then (am + 8, pm - 1) else (am, pm)
  if 31 < pm then (am + 8 * (pm - 31), 31) else (am, pm)

/-- `xin`, for a clock of 1 kHz at least. -/
def xinFor (fVco : UInt64) (xtalFreqDiv2 : UInt32) : UInt16 :=
  let rest :=
    ((fVco - fVco / xtalFreqDiv2.toUInt64 * xtalFreqDiv2.toUInt64) /
      1000).toUInt16
  let xin := (rest.toUInt32 <<< 15 / (xtalFreqDiv2 / 1000)).toUInt16
  if 16384 ≤ xin then xin + 32768 else xin

/-- The bits of register 6 for a bandwidth. -/
def bandwidthBits (bandwidth : UInt32) : UInt8 :=
  if bandwidth = 6000000 then 0x80
  else if bandwidth = 7000000 then 0x40
  else 0x00

/-- What the PLL is set to: the registers 1 to 6, and `vco_select`. -/
structure PllValues where
  reg : List UInt8
  reg6 : UInt8
  vcoSelect : Bool

/-- The part of `fc0012_set_params` and `fc0013_set_params` that computes. -/
def pllValues
    (clock freq bandwidth : UInt32)
    (divider : Divider) :
    Checked Chip PllValues := do
  let xtalFreqDiv2 := clock / 2
  let fVco := fVco freq divider.multi
  let vcoSelect := decide (3060000000 ≤ fVco)
  let reg6 := if vcoSelect then divider.reg6 ||| 0x08 else divider.reg6
  if xtalFreqDiv2 = 0 then
    Checked.fault .divisionByZero
  else
    -- From divided value (XDIV) determined the FA and FP value
    let (reg1, reg2) := cycles (xdivFor fVco xtalFreqDiv2)
    if 15 < reg1 ∨ reg2 < 0x0b then
      throw (-1)
    else if xtalFreqDiv2 / 1000 = 0 then
      Checked.fault .divisionByZero
    else
      let xin := xinFor fVco xtalFreqDiv2
      -- fix clock out; bits 6 and 7 describe the bandwidth
      let reg6 := (reg6 ||| 0x20) &&& 0x3f ||| bandwidthBits bandwidth
      return {
        reg :=
          [reg1, reg2, (xin >>> 8).toUInt8, (xin &&& 0xff).toUInt8,
            -- modified for Realtek demod
            divider.reg5 ||| 0x07, reg6]
        reg6 := reg6
        vcoSelect := vcoSelect }

/-- The writes of the registers 1 to 6. -/
def PllValues.writes (values : PllValues) : List (UInt8 × UInt8) :=
  [1, 2, 3, 4, 5, 6].zip values.reg

/-- VCO calibration. -/
def calibrateVco : Checked Chip Unit :=
  writeregs [(0x0e, 0x80), (0x0e, 0x00)]

/-- The calibration of the VCO, and the choice of its range. -/
def selectVco (vcoSelect : Bool) (reg6 : UInt8) : Checked Chip Unit := do
  calibrateVco
  -- VCO Re-Calibration if needed
  writereg 0x0e 0x00
  let tmp ← readreg 0x0e
  let tmp := tmp &&& 0x3f
  if vcoSelect then
    if 0x3c < tmp then
      writereg 0x06 (reg6 &&& ~~~0x08)
      calibrateVco
  else
    if tmp < 0x02 then
      writereg 0x06 (reg6 ||| 0x08)
      calibrateVco

section Answering

variable {before : Chip}

/-- On an answering chip a register is written. -/
theorem writereg_answered
    (answering : before.Answering)
    (reg val : UInt8) :
    Returns (writereg reg val).run before (.ok ()) (fun after =>
      after.Answering ∧
        after.registers = Function.update before.registers reg val) := by
  have wrote :
      Returns (writeByte reg val) before true (fun after =>
        after = before.passed.written reg val) :=
    ⟨_, writeByte_answered answering reg val, rfl⟩
  apply wrote.runLift.runBind
  rintro _ rfl
  exact Returns.runPure ⟨answering, rfl⟩

/-- Only the registers of a list are written. -/
theorem writereg_within
    {footprint : List UInt8}
    {start : Chip}
    (within : Chip.Within footprint start before)
    {reg : UInt8}
    (member : reg ∈ footprint)
    (val : UInt8) :
    Returns (writereg reg val).run before (.ok ())
      (Chip.Within footprint start) := by
  apply (within.writeByte member val).runLift.runBind
  intro after within
  exact Returns.runPure within

/-- A read writes nothing. -/
theorem readreg_within
    {footprint : List UInt8}
    {start : Chip}
    (within : Chip.Within footprint start before)
    (reg : UInt8) :
    Returns (readreg reg).run before
      (.ok (before.shows (before.transfers + 1) reg (before.registers reg)))
      (Chip.Within footprint start) := by
  apply (within.readByte reg).runLift.runBind
  intro after within
  exact Returns.runPure within

/-- On an answering chip a register is read. -/
theorem readreg_answered
    (answering : before.Answering)
    (reg : UInt8) :
    Returns (readreg reg).run before
      (.ok (before.shows (before.transfers + 1) reg (before.registers reg)))
      Chip.Answering :=
  (readreg_within (answering.within []) reg).mono fun _ within => within.answering

end Answering

end FcTuner

namespace Fc0012

open FcTuner

/-- The choice of the frequency divider. -/
def divider (freq : UInt32) : Divider :=
  if freq < 37084000 then ⟨96, 0x82, 0x00⟩
  else if freq < 55625000 then ⟨64, 0x82, 0x02⟩
  else if freq < 74167000 then ⟨48, 0x42, 0x00⟩
  else if freq < 111250000 then ⟨32, 0x42, 0x02⟩
  else if freq < 148334000 then ⟨24, 0x22, 0x00⟩
  else if freq < 222500000 then ⟨16, 0x22, 0x02⟩
  else if freq < 296667000 then ⟨12, 0x12, 0x00⟩
  else if freq < 445000000 then ⟨8, 0x12, 0x02⟩
  else if freq < 593334000 then ⟨6, 0x0a, 0x00⟩
  else ⟨4, 0x0a, 0x02⟩

/-- `fc0012_set_params`, for a tuner clock. -/
def setParams (clock freq bandwidth : UInt32) : Checked Chip Unit := do
  let values ← pllValues clock freq bandwidth (divider freq)
  writeregs values.writes
  selectVco values.vcoSelect values.reg6

/-- The gain bits of `fc0012_set_gain`. -/
def gainBits (gain : Int) : UInt8 :=
  if gain = -99 then 0x02
  else if gain = -40 then 0x00
  else if gain = 71 then 0x08
  else if gain = 179 then 0x17
  else 0x10

/-- `fc0012_set_gain`; when the register cannot be read its upper bits become zero. -/
def setGain (gain : Int) : Checked Chip Unit := do
  let tmp :=
    match ← (readreg 0x13).outcome with
    | .ok val => val
    | .error _ => 0
  writereg 0x13 (tmp &&& 0xe0 ||| gainBits gain)

end Fc0012

namespace Fc0013

open FcTuner

/-- The bits of register 0x1d for a VHF track. -/
def vhfTrack (freq : UInt32) : UInt8 :=
  if freq ≤ 177500000 then 0x1c
  else if freq ≤ 184500000 then 0x18
  else if freq ≤ 191500000 then 0x14
  else if freq ≤ 198500000 then 0x10
  else if freq ≤ 205500000 then 0x0c
  else if freq ≤ 219500000 then 0x08
  else if freq < 300000000 then 0x04
  else 0x1c

/-- `fc0013_set_vhf_track`. -/
def setVhfTrack (freq : UInt32) : Checked Chip Unit := do
  let tmp ← readreg 0x1d
  writereg 0x1d (tmp &&& 0xe3 ||| vhfTrack freq)

/-- Read a register and write it back with some bits changed. -/
def updatereg (reg : UInt8) (change : UInt8 → UInt8) : Checked Chip Unit := do
  let tmp ← readreg reg
  writereg reg (change tmp)

/-- The band filters of `fc0013_set_params`; above 862 MHz they are those of UHF. -/
def setFilters (freq : UInt32) : Checked Chip Unit := do
  if freq < 300000000 then
    -- enable VHF filter
    updatereg 0x07 (· ||| 0x10)
    -- disable UHF & disable GPS
    updatereg 0x14 (· &&& 0x1f)
  else
    -- disable VHF filter
    updatereg 0x07 (· &&& 0xef)
    -- enable UHF & disable GPS
    updatereg 0x14 (· &&& 0x1f ||| 0x40)

/-- The choice of the frequency divider. -/
def divider (freq : UInt32) : Divider :=
  if freq < 37084000 then ⟨96, 0x82, 0x00⟩
  else if freq < 55625000 then ⟨64, 0x02, 0x02⟩
  else if freq < 74167000 then ⟨48, 0x42, 0x00⟩
  else if freq < 111250000 then ⟨32, 0x82, 0x02⟩
  else if freq < 148334000 then ⟨24, 0x22, 0x00⟩
  else if freq < 222500000 then ⟨16, 0x42, 0x02⟩
  else if freq < 296667000 then ⟨12, 0x12, 0x00⟩
  else if freq < 445000000 then ⟨8, 0x22, 0x02⟩
  else if freq < 593334000 then ⟨6, 0x0a, 0x00⟩
  else if freq < 950000000 then ⟨4, 0x12, 0x02⟩
  else ⟨2, 0x0a, 0x02⟩

/-- `fc0013_set_params`, for a tuner clock. -/
def setParams (clock freq bandwidth : UInt32) : Checked Chip Unit := do
  setVhfTrack freq
  setFilters freq
  let values ← pllValues clock freq bandwidth (divider freq)
  writeregs values.writes
  updatereg 0x11
    (if (divider freq).multi = 64 then (· ||| 0x04) else (· &&& 0xfb))
  selectVco values.vcoSelect values.reg6

/-- `fc0013_lna_gains`, in pairs of a gain and its code. -/
def lnaGains : List (Int × UInt8) :=
  [(-99, 0x02), (-73, 0x03), (-65, 0x05), (-63, 0x04), (-63, 0x00),
    (-60, 0x07), (-58, 0x01), (-54, 0x06), (58, 0x0f), (61, 0x0e),
    (63, 0x0d), (65, 0x0c), (67, 0x0b), (68, 0x0a), (70, 0x09), (71, 0x08),
    (179, 0x17), (181, 0x16), (182, 0x15), (184, 0x14), (186, 0x13),
    (188, 0x12), (191, 0x11), (197, 0x10)]

/-- The loop of `fc0013_set_lna_gain`: the first entry that is not below the gain, or the last. -/
def lnaBits (gain : Int) : List (Int × UInt8) → UInt8
  | [] => 0
  | [last] => last.2
  | first :: rest => if gain ≤ first.1 then first.2 else lnaBits gain rest

/-- `fc0013_set_lna_gain`; the error of the read does not keep it from writing. -/
def setLnaGain (gain : Int) : Program Chip Int32 := do
  let read ← (readreg 0x14).run
  let (answer, tmp) :=
    match read with
    | .ok val => ((0 : Int32), val)
    | .error code => (code, 0)
  let wrote ← (writereg 0x14 (tmp &&& 0xe0 ||| lnaBits gain lnaGains)).result
  return answer ||| wrote

/-- `fc0013_set_gain_mode`. -/
def setGainMode (manual : Bool) : Program Chip Int32 := do
  let read ← (readreg 0x0d).run
  let (answer, tmp) :=
    match read with
    | .ok val => ((0 : Int32), val)
    | .error code => (code, 0)
  let tmp := if manual then tmp ||| 0x08 else tmp &&& ~~~0x08
  let wrote ← (writereg 0x0d tmp).result
  -- set a fixed IF-gain for now
  let wroteAgain ← (writereg 0x13 0x0a).result
  return answer ||| wrote ||| wroteAgain

end Fc0013

end LibRtlSdr
