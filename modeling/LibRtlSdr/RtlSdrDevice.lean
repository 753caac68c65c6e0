import LibRtlSdr.DriverProgram
import Mathlib.Algebra.Order.Ring.Int
import Mathlib.Algebra.Order.Ring.Nat

namespace LibRtlSdr.RtlSdr

open DriverProgram

/-!
# The device and its tuning

The functions of `librtlsdr.c` that tune the device, over any board: a board
answers the register writes of the demodulator and the calls into the driver of
its tuner, each with any result.  `rtlsdr_set_center_freq` and
`_rtlsdr_set_direct_sampling` call each other, so their model counts how deep
the calls nest.

Floating-point products are exact, and a value that does not fit the integer it
is converted to wraps.
-/

/-- `enum rtlsdr_tuner`. -/
inductive TunerType where
  | unknown
  | e4000
  | fc0012
  | fc0013
  | fc2580
  | r820t
  | r828d
  deriving Repr, DecidableEq

/-- The fields of `struct rtlsdr_dev` that tuning uses, and the hardware behind it. -/
structure Device (Hardware : Type) where
  rate : UInt32
  rtlXtal : UInt32
  directSampling : Int
  tunerType : TunerType
  tunXtal : UInt32
  freq : UInt32
  bw : UInt32
  offsFreq : UInt32
  corr : Int
  gain : Int
  directSamplingMode : Int
  hardware : Hardware

/-- What a tuner driver reads of the device it is called with. -/
structure TunerContext where
  tunerType : TunerType
  tunerClock : UInt32

/-- The entries of `rtlsdr_tuner_iface_t` that tuning calls; a missing one is `NULL`. -/
structure TunerInterface (Hardware : Type) where
  init : Option (TunerContext → Program Hardware Int32)
  exit : Option (Program Hardware Int32)
  setFreq : Option (TunerContext → UInt32 → Program Hardware Int32)

/-- The hardware as the library sees it: the demodulator and perhaps a tuner. -/
structure Board (Hardware : Type) where
  /-- `rtlsdr_demod_write_reg(dev, page, addr, val, len)`. -/
  demodWriteReg : Nat → Nat → UInt16 → Nat → Program Hardware Int32
  tuner : Option (TunerInterface Hardware)

/-- `APPLY_PPM_CORR`, converted to `uint32_t`. -/
def applyPpmCorr (value : UInt32) (ppm : Int) : UInt32 :=
  UInt32.ofInt (((value.toNat : Int) * (1000000 + ppm)).tdiv 1000000)

/-- A corrected clock that fits its 32 bits is the exact product, rounded down. -/
theorem applyPpmCorr_toNat
    {value : UInt32}
    {ppm : Int}
    (nonneg : 0 ≤ (value.toNat : Int) * (1000000 + ppm))
    (fits : (value.toNat : Int) * (1000000 + ppm) / 1000000 < 2 ^ 32) :
    ((applyPpmCorr value ppm).toNat : Int) =
      (value.toNat : Int) * (1000000 + ppm) / 1000000 := by
  unfold applyPpmCorr
  rw [Int.tdiv_eq_ediv_of_nonneg nonneg]
  simp only [UInt32.ofInt, UInt32.toNat_ofNat']
  omega

/-- The word `if_freq` of `rtlsdr_set_if_freq`, in two's complement. -/
def ifFreqWord (freq rtlXtal : UInt32) : UInt32 :=
  UInt32.ofInt (-((freq.toNat * 2 ^ 22 / rtlXtal.toNat : Nat) : Int))

/-- `R82XX_IF_FREQ`. -/
def r82xxIfFreq : UInt32 :=
  3570000

namespace Device

variable {Hardware : Type}

/-- The fields that the library keeps, without the hardware. -/
def software (device : Device Hardware) : Device Unit :=
  { device with hardware := () }

/-- The RTL clock of `rtlsdr_get_xtal_freq`. -/
def rtlClock (device : Device Hardware) : UInt32 :=
  applyPpmCorr device.rtlXtal device.corr

/-- The tuner clock of `rtlsdr_get_xtal_freq`. -/
def tunerClock (device : Device Hardware) : UInt32 :=
  applyPpmCorr device.tunXtal device.corr

/-- What the tuner driver reads of the device. -/
def context (device : Device Hardware) : TunerContext where
  tunerType := device.tunerType
  tunerClock := device.tunerClock

/-- The device with the given sampling mode. -/
def switchedTo (device : Device Hardware) (on : Int) : Device Hardware :=
  { device with directSampling := on }

/-- The sampling mode in which `rtlsdr_set_center_freq` tunes to a frequency. -/
def samplingFor (device : Device Hardware) (freq : UInt32) : Int :=
  if device.directSamplingMode = 0 then
    if freq < 24000000 ∧ device.tunerType = .r820t then 2 else 0
  else
    device.directSampling

/-- The device when `rtlsdr_set_center_freq` has chosen the sampling mode. -/
def aimedAt (device : Device Hardware) (freq : UInt32) : Device Hardware :=
  device.switchedTo (device.samplingFor freq)

/-- The device when the answer to a tuning is known. -/
def tuned
    (device : Device Hardware)
    (freq : UInt32)
    (answer : Int32) :
    Device Hardware :=
  { device with freq := if answer = 0 then freq else 0 }

end Device

section Calls

variable {Hardware : Type} (board : Board Hardware)

/-- A call into the hardware. -/
def onHardware
    {Value : Type}
    (call : Program Hardware Value) :
    Program (Device Hardware) Value :=
  onPart Device.hardware
    (fun hardware device => { device with hardware := hardware }) call

/-- `rtlsdr_demod_write_reg`. -/
def demodWriteReg
    (page addr : Nat)
    (val : UInt16)
    (len : Nat) :
    Program (Device Hardware) Int32 :=
  onHardware (board.demodWriteReg page addr val len)

/-- `rtlsdr_set_i2c_repeater`; it returns nothing. -/
def setI2cRepeater (on : Bool) : Program (Device Hardware) Unit := do
  let _ ← demodWriteReg board 1 0x01 (if on then 0x18 else 0x10) 1

/-- `rtlsdr_set_if_freq`. -/
def setIfFreq (freq : UInt32) : Program (Device Hardware) Int32 := do
  let device ← get
  let ifFreq := ifFreqWord freq device.rtlClock
  orAll
    [demodWriteReg board 1 0x19 (ifFreq >>> 16 &&& 0x3f).toUInt16 1,
      demodWriteReg board 1 0x1a (ifFreq >>> 8 &&& 0xff).toUInt16 1,
      demodWriteReg board 1 0x1b (ifFreq &&& 0xff).toUInt16 1]

/-- Call the tuner's `init`, if it has one, through the repeater. -/
def tunerInit : Program (Device Hardware) Int32 := do
  match board.tuner.bind TunerInterface.init with
  | none => return 0
  | some init =>
      setI2cRepeater board true
      let device ← get
      let answer ← onHardware (init device.context)
      setI2cRepeater board false
      return answer

/-- Call the tuner's `exit`, if it has one, through the repeater. -/
def tunerExit : Program (Device Hardware) Int32 := do
  match board.tuner.bind TunerInterface.exit with
  | none => return 0
  | some exit =>
      setI2cRepeater board true
      let answer ← onHardware exit
      setI2cRepeater board false
      return answer

/-- The operations of `_rtlsdr_set_direct_sampling` that turn direct sampling on. -/
def enableOperations (on : Int) : List (Program (Device Hardware) Int32) :=
  [tunerExit board,
    -- disable Zero-IF mode
    demodWriteReg board 1 0xb1 0x1a 1,
    -- disable spectrum inversion
    demodWriteReg board 1 0x15 0x00 1,
    -- only enable In-phase ADC input
    demodWriteReg board 0 0x08 0x4d 1,
    -- swap I and Q ADC, this allows to select between two inputs
    demodWriteReg board 0 0x06 (if on > 1 then 0x90 else 0x80) 1]

/-- The operations of `_rtlsdr_set_direct_sampling` that turn direct sampling off. -/
def disableOperations
    (tunerType : TunerType) :
    List (Program (Device Hardware) Int32) :=
  tunerInit board ::
    (if tunerType = .r820t ∨ tunerType = .r828d then
      [setIfFreq board r82xxIfFreq,
        -- enable spectrum inversion
        demodWriteReg board 1 0x15 0x01 1]
    else
      [setIfFreq board 0,
        -- enable In-phase + Quadrature ADC input
        demodWriteReg board 0 0x08 0xcd 1,
        -- enable Zero-IF mode
        demodWriteReg board 1 0xb1 0x1b 1]) ++
    -- opt_adc_iq = 0, default ADC_I/ADC_Q datapath
    [demodWriteReg board 0 0x06 0x80 1]

/-- The operations of `_rtlsdr_set_direct_sampling` up to its last call. -/
def switchOperations
    (tunerType : TunerType)
    (on : Int) :
    List (Program (Device Hardware) Int32) :=
  if on ≠ 0 then
    enableOperations board on
  else
    disableOperations board tunerType

/-- `_rtlsdr_set_direct_sampling`, with the function it tunes again with. -/
def switchSampling
    (retune : UInt32 → Program (Device Hardware) Int32)
    (on : Int) :
    Program (Device Hardware) Int32 := do
  let device ← get
  let switched ← orAll (switchOperations board device.tunerType on)
  modify (fun device => device.switchedTo on)
  let device ← get
  let retuned ← retune device.freq
  return switched ||| retuned

/-- The tuning that `rtlsdr_set_center_freq` asks for in the sampling mode it chose. -/
def tune (freq : UInt32) : Program (Device Hardware) Int32 := do
  let device ← get
  if device.directSampling ≠ 0 then
    setI2cRepeater board false
    setIfFreq board freq
  else
    match board.tuner.bind TunerInterface.setFreq with
    | none => return -1
    | some setFreq =>
        setI2cRepeater board true
        onHardware (setFreq device.context (freq - device.offsFreq))

/-- `rtlsdr_set_center_freq` with so many calls of itself to nest. -/
def setCenterFreqAt : Nat → UInt32 → Program (Device Hardware) Int32
  | 0, _ => throw .nestedTooDeep
  | nested + 1, freq => do
      let device ← get
      if board.tuner.isNone then
        return -1
      else if device.directSampling < 0 then
        return 1
      else
        set (device.aimedAt freq)
        let answer ← tune board freq
        modify (fun device => device.tuned freq answer)
        let lastDs := device.directSampling
        let device ← get
        if lastDs ≠ device.directSampling then
          switchSampling board (setCenterFreqAt nested) device.directSampling
        else
          return answer

/-- `rtlsdr_set_center_freq`; no call nests more than two others. -/
def setCenterFreq (freq : UInt32) : Program (Device Hardware) Int32 :=
  setCenterFreqAt board 3 freq

/-- `_rtlsdr_set_direct_sampling`. -/
def switchDirectSampling (on : Int) : Program (Device Hardware) Int32 :=
  switchSampling board (setCenterFreq board) on

/-- `rtlsdr_set_direct_sampling`. -/
def setDirectSampling (on : Int) : Program (Device Hardware) Int32 := do
  modify (fun device => { device with directSamplingMode := on })
  switchDirectSampling board on

end Calls

end LibRtlSdr.RtlSdr
