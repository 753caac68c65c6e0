import LibRtlSdr.RtlSdrCenterFreq
import LibRtlSdr.R82xxFrames
import LibRtlSdr.PartialRun

namespace LibRtlSdr.RtlSdr

open DriverProgram OverlayWrites

/-!
# The library on an R82xx tuner

The board of a stick with an R820T or an R828D, the functions of `librtlsdr.c`
that set it up for a program, and the device that `rtlsdr_open` leaves.
-/

/-- The demodulator: its registers, by page, and the script of its answers. -/
structure Demod where
  registers : Nat → Nat → R82xx.Byte
  answers : Nat → Bool
  writes : Nat

/-- The hardware of a stick. -/
structure Stick where
  demod : Demod
  tuner : R82xx.Priv

/-- The bytes of a register write of one or two bytes. -/
def demodBytes (val : UInt16) (len : Nat) : List R82xx.Byte :=
  if len = 1 then
    [BitVec.ofNat 8 (val &&& 0xff).toNat]
  else
    [BitVec.ofNat 8 (val >>> 8).toNat, BitVec.ofNat 8 (val &&& 0xff).toNat]

/-- A register write that is done. -/
def Stick.demodWritten
    (page addr : Nat)
    (val : UInt16)
    (len : Nat)
    (stick : Stick) :
    Stick :=
  { stick with
    demod :=
      { stick.demod with
        registers :=
          Function.update stick.demod.registers page
            (overlay (R82xx.patch addr (demodBytes val len))
              (stick.demod.registers page))
        writes := stick.demod.writes + 1 } }

/-- A register write that has failed. -/
def Stick.demodMissed (stick : Stick) : Stick :=
  { stick with
    demod := { stick.demod with writes := stick.demod.writes + 1 } }

/-- A function of the tuner. -/
def onTuner
    {Value : Type}
    (call : Program R82xx.Priv Value) :
    Program Stick Value :=
  onPart Stick.tuner (fun tuner stick => { stick with tuner := tuner }) call

/-- What `r820t_init` sets up before it calls `r82xx_init`. -/
def configure
    (context : TunerContext)
    (priv : R82xx.Priv) :
    R82xx.Priv :=
  { priv with
    rafaelChip := if context.tunerType = .r828d then .r828d else .r820t
    xtal := context.tunerClock }

/-- `r820t_init`. -/
def initTuner (context : TunerContext) : Program R82xx.Priv Int32 := do
  modify (configure context)
  R82xx.init.result

/-- The board of a stick with an R82xx tuner. -/
def r82xxBoard : Board Stick where
  demodWriteReg page addr val len := do
    let stick ← get
    if stick.demod.answers stick.demod.writes then
      modify (Stick.demodWritten page addr val len)
      return 0
    else
      modify Stick.demodMissed
      return -1
  tuner :=
    some
      { init := some fun context => onTuner (initTuner context)
        exit := some (onTuner R82xx.standby.result)
        setFreq := some fun _ freq => onTuner (R82xx.setFreq freq).result }

/-- A `uint32_t` passed as an `int`. -/
def asInt (value : UInt32) : Int :=
  value.toInt32.toInt

/-- `r820t_set_bw`. -/
def setBw (bw : Int) : Program (Device Stick) Int32 := do
  match ← onHardware (onTuner (R82xx.setBandwidth bw).run) with
  | .error code => return code
  | .ok intFreq =>
      let answer ← setIfFreq r82xxBoard intFreq
      if answer ≠ 0 then
        return answer
      else
        let device ← get
        setCenterFreq r82xxBoard device.freq

/-- The width that a bandwidth setting asks of the tuner. -/
def Device.widthFor {Hardware : Type} (device : Device Hardware) (bw : UInt32) : Int :=
  asInt (if 0 < bw then bw else device.rate)

/-- `rtlsdr_set_tuner_bandwidth`. -/
def setTunerBandwidth (bw : UInt32) : Program (Device Stick) Int32 := do
  setI2cRepeater r82xxBoard true
  let device ← get
  let answer ← setBw (device.widthFor bw)
  setI2cRepeater r82xxBoard false
  if answer ≠ 0 then
    return answer
  else
    modify fun device => { device with bw := bw }
    return answer

/-- `rtlsdr_set_tuner_gain`. -/
def setTunerGain (gain : Int) : Program (Device Stick) Int32 := do
  setI2cRepeater r82xxBoard true
  let answer ← onHardware (onTuner (R82xx.setGain true gain).result)
  modify fun device => { device with gain := if answer = 0 then gain else 0 }
  return answer

/-- `rtlsdr_set_tuner_gain_mode`. -/
def setTunerGainMode (manual : Bool) : Program (Device Stick) Int32 := do
  setI2cRepeater r82xxBoard true
  onHardware (onTuner (R82xx.setGain manual 0).result)

/-- `rtlsdr_set_sample_freq_correction`. -/
def setSampleFreqCorrection (ppm : Int) : Program (Device Stick) Int32 :=
  let offs := BitVec.ofInt 16 ((-ppm * 2 ^ 24).tdiv 1000000)
  orAll
    [demodWriteReg r82xxBoard 1 0x3f (UInt16.ofBitVec (offs &&& 0xff)) 1,
      demodWriteReg r82xxBoard 1 0x3e
        (UInt16.ofBitVec (offs >>> 8 &&& 0x3f)) 1]

/-- The rates that the resampler supports. -/
def SupportedRate (sampRate : UInt32) : Prop :=
  ¬ (sampRate ≤ 225000 ∨ 3200000 < sampRate ∨
    (300000 < sampRate ∧ sampRate ≤ 900000))

instance (sampRate : UInt32) : Decidable (SupportedRate sampRate) :=
  inferInstanceAs (Decidable (¬ _))

/-- `rsamp_ratio`. -/
def rsampRatio (rtlXtal sampRate : UInt32) : UInt32 :=
  UInt32.ofNat (rtlXtal.toNat * 2 ^ 22 / sampRate.toNat) &&& 0x0ffffffc

/-- `real_rate`, as `dev->rate` keeps it. -/
def realRate (rtlXtal ratio : UInt32) : UInt32 :=
  let realRatio := ratio ||| (ratio &&& 0x08000000) <<< 1
  UInt32.ofNat (rtlXtal.toNat * 2 ^ 22 / realRatio.toNat)

/--
`rtlsdr_set_sample_rate`.  With an offset frequency it ends with a call of
`rtlsdr_set_offset_tuning`, which on an R82xx only drives the bias tee.
-/
def setSampleRate (sampRate : UInt32) : Program (Device Stick) Int32 := do
  if ¬ SupportedRate sampRate then
    return -22
  else
    let device ← get
    let ratio := rsampRatio device.rtlXtal sampRate
    modify fun device => { device with rate := realRate device.rtlXtal ratio }
    setI2cRepeater r82xxBoard true
    let device ← get
    let _ ← setBw (device.widthFor device.bw)
    setI2cRepeater r82xxBoard false
    let device ← get
    orAll
      [demodWriteReg r82xxBoard 1 0x9f (ratio >>> 16).toUInt16 2,
        demodWriteReg r82xxBoard 1 0xa1 (ratio &&& 0xffff).toUInt16 2,
        setSampleFreqCorrection device.corr,
        -- reset demod (bit 3, soft_rst)
        demodWriteReg r82xxBoard 1 0x01 0x14 1,
        demodWriteReg r82xxBoard 1 0x01 0x10 1]

/-- Read the corrected clock value into the structure of the tuner. -/
def readTunerClock : Program (Device Stick) Unit := do
  let device ← get
  onHardware (onTuner (modify fun priv =>
    { priv with xtal := device.tunerClock }))

/-- Tune again, unless no frequency is set. -/
def retune (unset : Int32) : Program (Device Stick) Int32 := do
  let device ← get
  if device.freq ≠ 0 then
    setCenterFreq r82xxBoard device.freq
  else
    return unset

/-- `rtlsdr_set_freq_correction`. -/
def setFreqCorrection (ppm : Int) : Program (Device Stick) Int32 := do
  let device ← get
  if device.corr = ppm then
    return -2
  else
    modify fun device => { device with corr := ppm }
    let corrected ← setSampleFreqCorrection ppm
    readTunerClock
    let retuned ← retune 0
    return corrected ||| retuned

/-- The RTL clocks that `rtlsdr_set_xtal_freq` refuses. -/
def RefusedXtal (rtlFreq : UInt32) : Prop :=
  0 < rtlFreq ∧ (rtlFreq < 28799000 ∨ 28801000 < rtlFreq)

instance (rtlFreq : UInt32) : Decidable (RefusedXtal rtlFreq) :=
  inferInstanceAs (Decidable (_ ∧ _))

/-- The part of `rtlsdr_set_xtal_freq` for the RTL clock. -/
def setRtlXtal (rtlFreq : UInt32) : Program (Device Stick) Int32 := do
  let device ← get
  if 0 < rtlFreq ∧ device.rtlXtal ≠ rtlFreq then
    modify fun device => { device with rtlXtal := rtlFreq }
    -- update xtal-dependent settings
    if device.rate ≠ 0 then
      setSampleRate device.rate
    else
      return 0
  else
    return 0

/-- The part of `rtlsdr_set_xtal_freq` for the tuner clock. -/
def setTunXtal
    (tunerFreq : UInt32)
    (answer : Int32) :
    Program (Device Stick) Int32 := do
  let device ← get
  if device.tunXtal ≠ tunerFreq then
    modify fun device =>
      { device with
        tunXtal := if tunerFreq = 0 then device.rtlXtal else tunerFreq }
    readTunerClock
    retune answer
  else
    return answer

/-- `rtlsdr_set_xtal_freq`. -/
def setXtalFreq (rtlFreq tunerFreq : UInt32) : Program (Device Stick) Int32 := do
  if RefusedXtal rtlFreq then
    return -2
  else
    let answer ← setRtlXtal rtlFreq
    setTunXtal tunerFreq answer

/-- The functions that a program calls to set the device up. -/
inductive Setter where
  | sampleRate (sampRate : UInt32)
  | tunerBandwidth (bw : UInt32)
  | tunerGain (gain : Int)
  | tunerGainMode (manual : Bool)
  | centerFreq (freq : UInt32)
  | freqCorrection (ppm : Int)
  | xtalFreq (rtlFreq tunerFreq : UInt32)
  | directSampling (on : Int)

/-- The function that a setter stands for. -/
def Setter.call : Setter → Program (Device Stick) Int32
  | .sampleRate sampRate => setSampleRate sampRate
  | .tunerBandwidth bw => setTunerBandwidth bw
  | .tunerGain gain => setTunerGain gain
  | .tunerGainMode manual => setTunerGainMode manual
  | .centerFreq freq => setCenterFreq r82xxBoard freq
  | .freqCorrection ppm => setFreqCorrection ppm
  | .xtalFreq rtlFreq tunerFreq => setXtalFreq rtlFreq tunerFreq
  | .directSampling on => setDirectSampling r82xxBoard on

/-- One call; it has no result when the processor traps in it. -/
def Device.step (device : Device Stick) (setter : Setter) : Option (Device Stick) :=
  (setter.call.run device).toOption.map Prod.snd

/-- A step is a call that returns. -/
theorem Device.step_eq_some
    {device next : Device Stick}
    {setter : Setter} :
    device.step setter = some next ↔
      ∃ answer, Yields setter.call device answer next := by
  unfold Device.step Yields
  cases setter.call.run device with
  | error abort =>
      simp [Except.toOption]
  | ok outcome =>
      rcases outcome with ⟨answer, after⟩
      simp [Except.toOption]

section Nesting

variable (device : Device Stick)

/-- No function of this board calls the library. -/
theorem r82xxBoard_flat : r82xxBoard.Flat where
  demodWriteReg page addr val len stick := by
    unfold r82xxBoard
    rw [tooDeep_bind]
    rintro (deep | ⟨_, _, _, deep⟩)
    · exact not_tooDeep_get deep
    · split at deep <;>
        simp only [tooDeep_bind, not_tooDeep_modify, not_tooDeep_pure,
          and_false, exists_false, or_false] at deep
  init tuner isTuner init isInit context stick := by
    cases isTuner
    cases isInit
    unfold onTuner
    rw [tooDeep_onPart]
    unfold initTuner
    rw [tooDeep_bind]
    rintro (deep | ⟨_, _, _, deep⟩)
    · exact not_tooDeep_modify deep
    · exact R82xx.init_environment.result.flat _ deep
  exit tuner isTuner exit isExit stick := by
    cases isTuner
    cases isExit
    unfold onTuner
    rw [tooDeep_onPart]
    exact R82xx.standby_within.result.flat _
  setFreq tuner isTuner setFreq isSetFreq context freq stick := by
    cases isTuner
    cases isSetFreq
    unfold onTuner
    rw [tooDeep_onPart]
    exact (R82xx.setFreq_steady freq).result.flat _

theorem not_tooDeep_onTuner
    {Value : Type}
    {program : Program R82xx.Priv Value}
    (flat : ∀ priv, ¬ TooDeep program priv) :
    ¬ TooDeep (onHardware (onTuner program)) device := by
  unfold onHardware onTuner
  rw [tooDeep_onPart, tooDeep_onPart]
  exact flat _

theorem not_tooDeep_demodWriteReg
    (page addr : Nat)
    (val : UInt16)
    (len : Nat) :
    ¬ TooDeep (demodWriteReg r82xxBoard page addr val len) device :=
  r82xxBoard_flat.not_tooDeep_demodWriteReg page addr val len device

theorem not_tooDeep_setI2cRepeater
    (on : Bool) :
    ¬ TooDeep (setI2cRepeater r82xxBoard on) device :=
  r82xxBoard_flat.not_tooDeep_setI2cRepeater on device

theorem not_tooDeep_setGain
    (manual : Bool)
    (gain : Int) :
    ¬ TooDeep (onHardware (onTuner (R82xx.setGain manual gain).result)) device :=
  not_tooDeep_onTuner device (R82xx.setGain_within manual gain).result.flat

theorem not_tooDeep_setBw
    (bw : Int) :
    ¬ TooDeep (setBw bw) device := by
  unfold setBw
  rw [tooDeep_bind]
  rintro (deep | ⟨outcome, _, _, deep⟩)
  · exact not_tooDeep_onTuner device
      (R82xx.setBandwidth_environment bw).flat deep
  · cases outcome with
    | error code =>
        exact not_tooDeep_pure deep
    | ok intFreq =>
        rw [tooDeep_bind] at deep
        rcases deep with deep | ⟨_, _, _, deep⟩
        · exact r82xxBoard_flat.not_tooDeep_setIfFreq _ _ deep
        · split at deep
          · exact not_tooDeep_pure deep
          · rw [tooDeep_bind] at deep
            rcases deep with deep | ⟨_, _, _, deep⟩
            · exact not_tooDeep_get deep
            · exact setCenterFreq_not_tooDeep r82xxBoard_flat _ _ deep

theorem not_tooDeep_setSampleFreqCorrection
    (ppm : Int) :
    ¬ TooDeep (setSampleFreqCorrection ppm) device := by
  refine not_tooDeep_orAll ?_ device
  intro operation member
  simp only [List.mem_cons, List.not_mem_nil, or_false] at member
  rcases member with rfl | rfl <;>
    exact fun device => not_tooDeep_demodWriteReg device _ _ _ _

theorem not_tooDeep_setSampleRate
    (sampRate : UInt32) :
    ¬ TooDeep (setSampleRate sampRate) device := by
  have writes :
      ∀ (ratio : UInt32) (ppm : Int) (state : Device Stick),
        ¬ TooDeep
          (orAll
            [demodWriteReg r82xxBoard 1 0x9f (ratio >>> 16).toUInt16 2,
              demodWriteReg r82xxBoard 1 0xa1 (ratio &&& 0xffff).toUInt16 2,
              setSampleFreqCorrection ppm,
              demodWriteReg r82xxBoard 1 0x01 0x14 1,
              demodWriteReg r82xxBoard 1 0x01 0x10 1])
          state := by
    intro ratio ppm
    refine not_tooDeep_orAll ?_
    intro operation member
    simp only [List.mem_cons, List.not_mem_nil, or_false] at member
    rcases member with rfl | rfl | rfl | rfl | rfl
    · exact fun device => not_tooDeep_demodWriteReg device _ _ _ _
    · exact fun device => not_tooDeep_demodWriteReg device _ _ _ _
    · exact fun device => not_tooDeep_setSampleFreqCorrection device _
    · exact fun device => not_tooDeep_demodWriteReg device _ _ _ _
    · exact fun device => not_tooDeep_demodWriteReg device _ _ _ _
  unfold setSampleRate
  split
  · exact not_tooDeep_pure
  · simp only [tooDeep_bind, not_tooDeep_get, not_tooDeep_modify,
      not_tooDeep_setI2cRepeater, not_tooDeep_setBw, writes, and_false,
      exists_false, or_false, not_false_eq_true]

theorem not_tooDeep_readTunerClock :
    ¬ TooDeep readTunerClock device := by
  unfold readTunerClock
  rw [tooDeep_bind]
  rintro (deep | ⟨_, _, _, deep⟩)
  · exact not_tooDeep_get deep
  · exact not_tooDeep_onTuner _ (fun _ => not_tooDeep_modify) deep

theorem not_tooDeep_retune
    (unset : Int32) :
    ¬ TooDeep (retune unset) device := by
  unfold retune
  rw [tooDeep_bind]
  rintro (deep | ⟨_, _, _, deep⟩)
  · exact not_tooDeep_get deep
  · split at deep
    · exact setCenterFreq_not_tooDeep r82xxBoard_flat _ _ deep
    · exact not_tooDeep_pure deep

theorem not_tooDeep_setRtlXtal
    (rtlFreq : UInt32) :
    ¬ TooDeep (setRtlXtal rtlFreq) device := by
  unfold setRtlXtal
  rw [tooDeep_bind]
  rintro (deep | ⟨_, _, _, deep⟩)
  · exact not_tooDeep_get deep
  · split at deep
    · rw [tooDeep_bind] at deep
      rcases deep with deep | ⟨_, _, _, deep⟩
      · exact not_tooDeep_modify deep
      · split at deep
        · exact not_tooDeep_setSampleRate _ _ deep
        · exact not_tooDeep_pure deep
    · exact not_tooDeep_pure deep

theorem not_tooDeep_setTunXtal
    (tunerFreq : UInt32)
    (answer : Int32) :
    ¬ TooDeep (setTunXtal tunerFreq answer) device := by
  unfold setTunXtal
  rw [tooDeep_bind]
  rintro (deep | ⟨_, _, _, deep⟩)
  · exact not_tooDeep_get deep
  · split at deep
    · simp only [tooDeep_bind, not_tooDeep_modify,
        not_tooDeep_readTunerClock, not_tooDeep_retune, and_false,
        exists_false, or_false] at deep
    · exact not_tooDeep_pure deep

/-- No setter ends because its calls nest too deep. -/
theorem Setter.not_tooDeep
    (setter : Setter) :
    ¬ TooDeep setter.call device := by
  cases setter with
  | sampleRate sampRate =>
      exact not_tooDeep_setSampleRate device sampRate
  | tunerBandwidth bw =>
      change ¬ TooDeep (setTunerBandwidth bw) device
      unfold setTunerBandwidth
      simp only [tooDeep_bind, not_tooDeep_setI2cRepeater, not_tooDeep_get,
        not_tooDeep_setBw, false_or]
      rintro ⟨_, _, _, _, _, _, _, _, _, _, _, _, deep⟩
      split at deep
      · exact not_tooDeep_pure deep
      · simp only [tooDeep_bind, not_tooDeep_modify, not_tooDeep_pure,
          and_false, exists_false, or_false] at deep
  | tunerGain gain =>
      change ¬ TooDeep (setTunerGain gain) device
      unfold setTunerGain
      simp only [tooDeep_bind, not_tooDeep_setI2cRepeater,
        not_tooDeep_setGain, not_tooDeep_modify, not_tooDeep_pure, and_false,
        exists_false, or_false, not_false_eq_true]
  | tunerGainMode manual =>
      change ¬ TooDeep (setTunerGainMode manual) device
      unfold setTunerGainMode
      simp only [tooDeep_bind, not_tooDeep_setI2cRepeater,
        not_tooDeep_setGain, and_false, exists_false, or_false,
        not_false_eq_true]
  | centerFreq freq =>
      exact setCenterFreq_not_tooDeep r82xxBoard_flat freq device
  | freqCorrection ppm =>
      change ¬ TooDeep (setFreqCorrection ppm) device
      unfold setFreqCorrection
      rw [tooDeep_bind]
      rintro (deep | ⟨_, _, _, deep⟩)
      · exact not_tooDeep_get deep
      · split at deep
        · exact not_tooDeep_pure deep
        · simp only [tooDeep_bind, not_tooDeep_modify,
            not_tooDeep_setSampleFreqCorrection, not_tooDeep_readTunerClock,
            not_tooDeep_retune, not_tooDeep_pure, and_false, exists_false,
            or_false] at deep
  | xtalFreq rtlFreq tunerFreq =>
      change ¬ TooDeep (setXtalFreq rtlFreq tunerFreq) device
      unfold setXtalFreq
      split
      · exact not_tooDeep_pure
      · simp only [tooDeep_bind, not_tooDeep_setRtlXtal,
          not_tooDeep_setTunXtal, and_false, exists_false, or_false,
          not_false_eq_true]
  | directSampling on =>
      change ¬ TooDeep (setDirectSampling r82xxBoard on) device
      unfold setDirectSampling switchDirectSampling switchSampling
      simp only [tooDeep_bind, not_tooDeep_modify, not_tooDeep_get,
        not_tooDeep_orAll (r82xxBoard_flat.not_tooDeep_switchOperations _ _),
        setCenterFreq_not_tooDeep r82xxBoard_flat, not_tooDeep_pure,
        and_false, exists_false, or_false, not_false_eq_true]

/-- A setter has no result only when the processor traps in it. -/
theorem Device.step_eq_none
    {setter : Setter} :
    device.step setter = none ↔
      setter.call.run device = .error .divisionByZero := by
  have flat := setter.not_tooDeep device
  unfold TooDeep at flat
  unfold Device.step
  cases ran : setter.call.run device with
  | error abort =>
      rw [ran] at flat
      cases abort with
      | divisionByZero =>
          simp [Except.toOption]
      | nestedTooDeep =>
          exact absurd rfl flat
  | ok outcome =>
      simp [Except.toOption]

end Nesting

/-- A tuner that `calloc` has cleared, on a bus. -/
def clearedTuner (blogV4 : Bool) (bus : R82xx.Bus) : R82xx.Priv where
  xtal := 0
  rafaelChip := .r820t
  regs _ := 0
  xtalCapSel := .lowCap30p
  intFreq := 0
  filCalCode := 0
  input := 0
  hasLock := false
  initDone := false
  blogV4 := blogV4
  bus := bus

/-- The device when `rtlsdr_open` has found its tuner. -/
def foundDevice
    (tunerType : TunerType)
    (blogV4 : Bool)
    (demod : Demod)
    (bus : R82xx.Bus) :
    Device Stick where
  rate := 0
  rtlXtal := 28800000
  directSampling := 0
  tunerType := tunerType
  tunXtal :=
    -- If NOT an RTL-SDR Blog V4, set typical R828D 16 MHz freq.
    if tunerType = .r828d ∧ blogV4 = false then 16000000 else 28800000
  freq := 0
  bw := 0
  offsFreq := 0
  corr := 0
  gain := 0
  directSamplingMode := 0
  hardware := { demod := demod, tuner := clearedTuner blogV4 bus }

/-- `rtlsdr_open` from the label `found` on, for an R82xx tuner. -/
def openFound : Program (Device Stick) Int32 := do
  let _ ← orAll
    [ -- disable Zero-IF mode
      demodWriteReg r82xxBoard 1 0xb1 0x1a 1,
      -- only enable In-phase ADC input
      demodWriteReg r82xxBoard 0 0x08 0x4d 1,
      -- the R82XX use 3.57 MHz IF for the DVB-T 6 MHz mode
      setIfFreq r82xxBoard r82xxIfFreq,
      -- enable spectrum inversion
      demodWriteReg r82xxBoard 1 0x15 0x01 1]
  let device ← get
  let _ ← onHardware (onTuner (initTuner device.context))
  setI2cRepeater r82xxBoard false
  return 0

/-- A device as `rtlsdr_open` leaves it, when every transfer succeeds. -/
structure Opened (device : Device Stick) : Prop where
  isOpen :
    ∃ tunerType blogV4 demod bus,
      (tunerType = .r820t ∨ tunerType = .r828d) ∧
        (∀ place, demod.answers place = true) ∧
        (clearedTuner blogV4 bus).AllDone ∧
        Yields openFound (foundDevice tunerType blogV4 demod bus) 0 device

end LibRtlSdr.RtlSdr
