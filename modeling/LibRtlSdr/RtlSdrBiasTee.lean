import LibRtlSdr.PartialRun
import LibRtlSdr.RtlSdrCenterFreq

namespace LibRtlSdr.RtlSdr

open DriverProgram PartialRun

/-!
# The bias tee and the GPIO pins

The pins of the demodulator are driven by read-modify-writes of three shared
registers.  `rtlsdr_set_bias_tee_gpio` keeps a forced bias tee on by a test of
its `int` pin number, and then hands the number on as a `uint8_t`.

The tuner drivers reach their chips over I2C only; the one exception is the band
filter of the FC0012, which hangs on a pin.
-/

section Frames

variable {Hardware Observed : Type}

/-- The board and the drivers on it leave a part of the hardware alone. -/
structure Board.Spares
    (board : Board Hardware)
    (observe : Hardware → Observed) : Prop where
  demodWriteReg :
    ∀ page addr val len, Keeps observe (board.demodWriteReg page addr val len)
  init :
    ∀ init, board.tuner.bind TunerInterface.init = some init →
      ∀ context, Keeps observe (init context)
  exit :
    ∀ exit, board.tuner.bind TunerInterface.exit = some exit →
      Keeps observe exit
  setFreq :
    ∀ setFreq, board.tuner.bind TunerInterface.setFreq = some setFreq →
      ∀ context freq, Keeps observe (setFreq context freq)

/-- What is seen of the hardware of a device. -/
def Device.seenBy
    (observe : Hardware → Observed)
    (device : Device Hardware) : Observed :=
  observe device.hardware

variable {observe : Hardware → Observed} {board : Board Hardware}

/-- A call that leaves a part of the hardware alone does so within the device. -/
theorem onHardware_spares
    {Value : Type}
    {call : Program Hardware Value}
    (kept : Keeps observe call) :
    Keeps (Device.seenBy observe) (onHardware call) :=
  Keeps.onPart kept fun _ _ same => same

namespace Board.Spares

variable (spares : board.Spares observe)

include spares

theorem setI2cRepeater (on : Bool) :
    Keeps (Device.seenBy observe) (RtlSdr.setI2cRepeater board on) :=
  (onHardware_spares (spares.demodWriteReg _ _ _ _)).bind fun _ =>
    Keeps.pure _

theorem setIfFreq (freq : UInt32) :
    Keeps (Device.seenBy observe) (RtlSdr.setIfFreq board freq) := by
  refine Keeps.get.bind fun device => Keeps.orAll ?_
  intro operation member
  simp only [List.mem_cons, List.not_mem_nil, or_false] at member
  rcases member with rfl | rfl | rfl
  all_goals exact onHardware_spares (spares.demodWriteReg _ _ _ _)

theorem tunerInit :
    Keeps (Device.seenBy observe) (RtlSdr.tunerInit board) := by
  unfold RtlSdr.tunerInit
  cases found : board.tuner.bind TunerInterface.init with
  | none =>
      exact Keeps.pure _
  | some init =>
      exact (spares.setI2cRepeater true).bind fun _ =>
        Keeps.get.bind fun _ =>
          (onHardware_spares (spares.init init found _)).bind fun _ =>
            (spares.setI2cRepeater false).bind fun _ => Keeps.pure _

theorem tunerExit :
    Keeps (Device.seenBy observe) (RtlSdr.tunerExit board) := by
  unfold RtlSdr.tunerExit
  cases found : board.tuner.bind TunerInterface.exit with
  | none =>
      exact Keeps.pure _
  | some exit =>
      exact (spares.setI2cRepeater true).bind fun _ =>
        (onHardware_spares (spares.exit exit found)).bind fun _ =>
          (spares.setI2cRepeater false).bind fun _ => Keeps.pure _

theorem tune (freq : UInt32) :
    Keeps (Device.seenBy observe) (RtlSdr.tune board freq) := by
  refine Keeps.get.bind fun device => Keeps.ite ?_ ?_
  · exact (spares.setI2cRepeater false).bind fun _ => spares.setIfFreq freq
  · cases found : board.tuner.bind TunerInterface.setFreq with
    | none =>
        exact Keeps.pure _
    | some setFreq =>
        exact (spares.setI2cRepeater true).bind fun _ =>
          onHardware_spares (spares.setFreq setFreq found _ _)

/-- No tuning touches a part of the hardware that the board spares. -/
theorem setCenterFreqAt (nested : Nat) (freq : UInt32) :
    Keeps (Device.seenBy observe) (RtlSdr.setCenterFreqAt board nested freq) := by
  refine setCenterFreqAt_frame (fun _ _ => rfl) (fun _ _ _ => rfl)
    spares.tune ?_ nested freq
  exact switchOperations_forall board spares.tunerInit spares.tunerExit
    spares.setIfFreq
    (fun _ _ _ _ _ => onHardware_spares (spares.demodWriteReg _ _ _ _))

end Board.Spares

end Frames

/-! ## The pins -/

/-- The three registers of the pins, of one byte each. -/
structure Pins where
  /-- `GPO`: the output bits. -/
  gpo : UInt8
  /-- `GPD`: a set bit makes a pin an input. -/
  gpd : UInt8
  /-- `GPOE`: the enabled outputs. -/
  gpoe : UInt8

/-- The value of `rtlsdr_read_reg` for one byte, over what its second byte happens to hold. -/
def readReg (junk register : UInt8) : UInt16 :=
  junk.toUInt16 <<< 8 ||| register.toUInt16

/-- What `rtlsdr_write_reg` sends of a value if it writes one byte. -/
def writeReg (value : UInt16) : UInt8 :=
  (value &&& 0xff).toUInt8

/--
`gpio = 1 << gpio` of a `uint8_t`.  C leaves shifts of 32 and more places open,
and `wide` says what the platform does with them.
-/
def shifted (wide : UInt8 → UInt8) (gpio : UInt8) : UInt8 :=
  if gpio < 32 then UInt8.ofNat (2 ^ gpio.toNat) else wide gpio

namespace Pins

/-- `rtlsdr_set_gpio_bit`. -/
def setGpioBit
    (wide : UInt8 → UInt8)
    (junk gpio : UInt8)
    (val : Int32)
    (pins : Pins) : Pins :=
  let mask := (shifted wide gpio).toUInt16
  let r := readReg junk pins.gpo
  { pins with
    gpo := writeReg (if val ≠ 0 then r ||| mask else r &&& ~~~mask) }

/-- `rtlsdr_set_gpio_output`. -/
def setGpioOutput
    (wide : UInt8 → UInt8)
    (junk gpio : UInt8)
    (pins : Pins) : Pins :=
  let mask := (shifted wide gpio).toUInt16
  { pins with
    gpd := writeReg (readReg junk pins.gpd &&& ~~~mask)
    gpoe := writeReg (readReg junk pins.gpoe ||| mask) }

/-- The registers agree outside of these bits. -/
def AgreeOutside (bits : UInt8) (before after : Pins) : Prop :=
  after.gpo &&& ~~~bits = before.gpo &&& ~~~bits ∧
    after.gpd &&& ~~~bits = before.gpd &&& ~~~bits ∧
    after.gpoe &&& ~~~bits = before.gpoe &&& ~~~bits

/-- The output bit of pin 0 is set. -/
def DrivesPin0 (pins : Pins) : Prop :=
  pins.gpo.toBitVec.getLsbD 0 = true

instance (pins : Pins) : Decidable pins.DrivesPin0 :=
  inferInstanceAs (Decidable (_ = true))

end Pins

section Registers

variable (junk register mask : UInt8)

theorem toUInt8_and_ff (value : UInt16) :
    (value &&& 0xff).toUInt8 = value.toUInt8 := by
  apply UInt8.toNat_inj.mp
  rw [UInt16.toNat_toUInt8, UInt16.toNat_toUInt8, UInt16.toNat_and]
  have mask : value.toNat &&& UInt16.toNat 0xff = value.toNat % 2 ^ 8 :=
    Nat.and_two_pow_sub_one_eq_mod value.toNat 8
  rw [mask, Nat.mod_mod]

theorem toUInt8_shiftLeft : (junk.toUInt16 <<< 8).toUInt8 = 0 := by
  apply UInt8.toNat_inj.mp
  have places : UInt16.toNat 8 % 16 = 8 :=
    rfl
  have zero : UInt8.toNat 0 = 0 :=
    rfl
  rw [UInt16.toNat_toUInt8, UInt16.toNat_shiftLeft, places, zero,
    Nat.shiftLeft_eq]
  omega

/-- The second byte of a read does not get through a read-modify-write. -/
theorem writeReg_or :
    writeReg (readReg junk register ||| mask.toUInt16) = register ||| mask := by
  rw [writeReg, toUInt8_and_ff, readReg, UInt16.toUInt8_or, UInt16.toUInt8_or,
    toUInt8_shiftLeft]
  simp

theorem writeReg_andNot :
    writeReg (readReg junk register &&& ~~~mask.toUInt16) =
      register &&& ~~~mask := by
  rw [writeReg, toUInt8_and_ff, readReg, UInt16.toUInt8_and, UInt16.toUInt8_or,
    UInt16.toUInt8_not, toUInt8_shiftLeft]
  simp

theorem or_andNot : (register ||| mask) &&& ~~~mask = register &&& ~~~mask := by
  apply UInt8.toBitVec_inj.mp
  apply BitVec.eq_of_getElem_eq
  intro index inByte
  simp
  grind

theorem andNot_andNot :
    (register &&& ~~~mask) &&& ~~~mask = register &&& ~~~mask := by
  rw [UInt8.and_assoc, UInt8.and_self]

end Registers

namespace Pins

variable {wide : UInt8 → UInt8} {junk gpio : UInt8} {val : Int32} {pins : Pins}

/-- An output bit is set or cleared, and nothing else. -/
theorem setGpioBit_eq :
    pins.setGpioBit wide junk gpio val =
      { pins with
        gpo :=
          if val ≠ 0 then
            pins.gpo ||| shifted wide gpio
          else
            pins.gpo &&& ~~~shifted wide gpio } := by
  rw [setGpioBit]
  split
  · rw [writeReg_or]
  · rw [writeReg_andNot]

/-- A pin becomes an output. -/
theorem setGpioOutput_eq :
    pins.setGpioOutput wide junk gpio =
      { pins with
        gpd := pins.gpd &&& ~~~shifted wide gpio
        gpoe := pins.gpoe ||| shifted wide gpio } := by
  rw [setGpioOutput]
  rw [writeReg_or, writeReg_andNot]

/-- The other output bits stay. -/
theorem setGpioBit_andNot
    (wide : UInt8 → UInt8)
    (junk gpio : UInt8)
    (val : Int32)
    (pins : Pins) :
    (pins.setGpioBit wide junk gpio val).gpo &&& ~~~shifted wide gpio =
      pins.gpo &&& ~~~shifted wide gpio := by
  rw [setGpioBit_eq]
  dsimp only
  split
  · exact or_andNot _ _
  · exact andNot_andNot _ _

/-- A pin is driven without a change to the other ones. -/
theorem setGpio_agreeOutside (pins : Pins) :
    AgreeOutside (shifted wide gpio) pins
      ((pins.setGpioOutput wide junk gpio).setGpioBit wide junk gpio val) := by
  have bits := setGpioBit_andNot wide junk gpio val
    (pins.setGpioOutput wide junk gpio)
  rw [setGpioOutput_eq] at *
  exact ⟨bits, andNot_andNot _ _, or_andNot _ _⟩

/-- Pin 0 is high if it is not among the changed ones. -/
theorem DrivesPin0.of_agree
    {bits : UInt8}
    {after : Pins}
    (drives : pins.DrivesPin0)
    (spared : bits.toBitVec.getLsbD 0 = false)
    (agree : after.gpo &&& ~~~bits = pins.gpo &&& ~~~bits) :
    after.DrivesPin0 := by
  have same :=
    congrArg (fun byte : UInt8 => byte.toBitVec.getLsbD 0) agree
  simp only [UInt8.toBitVec_and, UInt8.toBitVec_not, BitVec.getLsbD_and,
    BitVec.getLsbD_not, spared, Bool.not_false, Bool.and_true] at same
  have inByte : decide (0 < 8) = true :=
    rfl
  rw [inByte, Bool.and_true, Bool.and_true] at same
  exact same.trans drives

/-- Pin 0 stays high if it is not named, or set. -/
theorem DrivesPin0.setGpioBit
    (drives : pins.DrivesPin0)
    (spared : val ≠ 0 ∨ (shifted wide gpio).toBitVec.getLsbD 0 = false) :
    (pins.setGpioBit wide junk gpio val).DrivesPin0 := by
  rw [setGpioBit_eq, DrivesPin0]
  dsimp only
  split
  · rw [UInt8.toBitVec_or, BitVec.getLsbD_or, drives, Bool.true_or]
  · rename_i cleared
    have notNamed := spared.resolve_left cleared
    rw [UInt8.toBitVec_and, UInt8.toBitVec_not, BitVec.getLsbD_and,
      BitVec.getLsbD_not, drives, notNamed]
    rfl

end Pins

/-! ## The calls -/

/-- The hardware of a device with pins, and the flag that forces the bias tee on. -/
structure Supplied (Rest : Type) where
  pins : Pins
  /-- `dev->force_bt`, which only `rtlsdr_open` sets. -/
  forceBt : Int32
  /-- What the second byte of `rtlsdr_read_reg` happens to hold. -/
  junk : UInt8
  rest : Rest

/-- The demodulator and the tuner drivers, as far as they are not the pins. -/
structure Chips (Rest : Type) where
  board : Board Rest
  /-- `dev->tuner->set_bw`. -/
  setBw : Option (UInt32 → Program Rest Int32)

section Calls

variable {Rest : Type} (wide : UInt8 → UInt8) (chips : Chips Rest)

/-- A call into the hardware beside the pins. -/
def onRest
    {Value : Type}
    (call : Program Rest Value) :
    Program (Supplied Rest) Value :=
  onPart Supplied.rest (fun rest supplied => { supplied with rest := rest }) call

/-- `rtlsdr_set_gpio_bit` of a device. -/
def setGpioBit (gpio : UInt8) (val : Int32) : Program (Supplied Rest) Unit :=
  modify fun supplied =>
    { supplied with
      pins := supplied.pins.setGpioBit wide supplied.junk gpio val }

/-- `rtlsdr_set_gpio_output` of a device. -/
def setGpioOutput (gpio : UInt8) : Program (Supplied Rest) Unit :=
  modify fun supplied =>
    { supplied with
      pins := supplied.pins.setGpioOutput wide supplied.junk gpio }

/-- The tuner driver with its `set_freq`: that of the FC0012 selects its band first. -/
def suppliedTuner
    (tunerType : TunerType)
    (tuner : TunerInterface Rest) :
    TunerInterface (Supplied Rest) where
  init := tuner.init.map fun init context => onRest (init context)
  exit := tuner.exit.map onRest
  setFreq :=
    tuner.setFreq.map fun setFreq context freq => do
      if tunerType = .fc0012 then
        setGpioBit wide 6 (if freq > 300000000 then 1 else 0)
      onRest (setFreq context freq)

/-- The board of a device with pins; `dev->tuner` belongs to the type that was found. -/
def suppliedBoard (tunerType : TunerType) : Board (Supplied Rest) where
  demodWriteReg page addr val len :=
    onRest (chips.board.demodWriteReg page addr val len)
  tuner := chips.board.tuner.map (suppliedTuner wide tunerType)

/-- `rtlsdr_set_bias_tee_gpio`; the number of the pin is narrowed to a byte. -/
def setBiasTeeGpio
    (gpio on : Int32) :
    Program (Device (Supplied Rest)) Int32 := do
  let device ← get
  let on := if gpio = 0 ∧ device.hardware.forceBt ≠ 0 then 1 else on
  onHardware (setGpioOutput wide gpio.toUInt32.toUInt8)
  onHardware (setGpioBit wide gpio.toUInt32.toUInt8 on)
  return 0

/-- `rtlsdr_set_bias_tee`. -/
def setBiasTee (on : Int32) : Program (Device (Supplied Rest)) Int32 :=
  setBiasTeeGpio wide 0 on

/-- The call of `set_bw` in `rtlsdr_set_offset_tuning`. -/
def offsetBandwidth (on : Int32) : Program (Device (Supplied Rest)) Unit := do
  match chips.setBw with
  | none => return ()
  | some setBw =>
      let device ← get
      setI2cRepeater (suppliedBoard wide chips device.tunerType) true
      let bw :=
        if on ≠ 0 then
          2 * device.offsFreq
        else if 0 < device.bw then
          device.bw
        else
          device.rate
      let _ ← onHardware (onRest (setBw bw))
      setI2cRepeater (suppliedBoard wide chips device.tunerType) false

/-- `rtlsdr_set_offset_tuning`. -/
def setOffsetTuning (on : Int32) : Program (Device (Supplied Rest)) Int32 := do
  let device ← get
  if device.tunerType = .r820t ∨ device.tunerType = .r828d then
    let _ ← setBiasTee wide on
    return -2
  else if device.directSampling ≠ 0 then
    return -3
  else
    modify fun device =>
      { device with
        offsFreq := if on ≠ 0 then device.rate / 2 * 170 / 100 else 0 }
    let device ← get
    let board := suppliedBoard wide chips device.tunerType
    let tunedIf ← setIfFreq board device.offsFreq
    offsetBandwidth wide chips on
    let device ← get
    if device.freq > device.offsFreq then
      let tuned ← setCenterFreq board device.freq
      return tunedIf ||| tuned
    else
      return tunedIf

/-- The three functions of the library that reach the bias tee. -/
inductive Call where
  | setBiasTee (on : Int32)
  | setBiasTeeGpio (gpio on : Int32)
  | setOffsetTuning (on : Int32)

/-- The function that a call stands for. -/
def Call.program : Call → Program (Device (Supplied Rest)) Int32
  | .setBiasTee on => RtlSdr.setBiasTee wide on
  | .setBiasTeeGpio gpio on => RtlSdr.setBiasTeeGpio wide gpio on
  | .setOffsetTuning on => RtlSdr.setOffsetTuning wide chips on

/-- One call; it has no result when the processor traps in it. -/
def Device.call
    (device : Device (Supplied Rest))
    (call : Call) :
    Option (Device (Supplied Rest)) :=
  ((call.program wide chips).run device).toOption.map Prod.snd

end Calls

/-- The bit of the pin with this number; there are eight pins. -/
def namedBit (gpio : Int32) : UInt8 :=
  if 0 ≤ gpio.toInt ∧ gpio.toInt < 8 then
    UInt8.ofNat (2 ^ gpio.toInt.toNat)
  else
    0

/-- The pin of the band filter: the FC0012 has one. -/
def filterBit (tunerType : TunerType) : UInt8 :=
  if tunerType = .fc0012 then 0x40 else 0

/-- The bit of the pin that a call is about. -/
def Call.pin (tunerType : TunerType) : Call → UInt8
  | .setBiasTee _ => 1
  | .setBiasTeeGpio gpio _ => namedBit gpio
  | .setOffsetTuning _ =>
      if tunerType = .r820t ∨ tunerType = .r828d then
        1
      else
        filterBit tunerType

/-- The number of the pin, narrowed to a byte and shifted, is that pin or no pin. -/
def Call.NamesItsPin (wide : UInt8 → UInt8) : Call → Prop
  | .setBiasTeeGpio gpio _ =>
      shifted wide gpio.toUInt32.toUInt8 = namedBit gpio
  | _ => True

/-- A number below 8 is its own low byte. -/
theorem toNat_toUInt8_of_pin
    {gpio : Int32}
    (isPin : 0 ≤ gpio.toInt ∧ gpio.toInt < 8) :
    gpio.toUInt32.toUInt8.toNat = gpio.toInt.toNat := by
  have word : gpio.toUInt32.toNat = gpio.toBitVec.toNat :=
    rfl
  have signed : gpio.toInt = gpio.toBitVec.toInt :=
    rfl
  rw [BitVec.toInt_eq_toNat_cond] at signed
  rw [UInt32.toNat_toUInt8, word]
  split at signed <;> omega

/-- If the byte is below 32, the number names a pin, or the byte names none. -/
theorem Call.namesItsPin_iff
    {wide : UInt8 → UInt8}
    {gpio : Int32}
    (on : Int32)
    (narrow : gpio.toUInt32.toUInt8 < 32) :
    (Call.setBiasTeeGpio gpio on).NamesItsPin wide ↔
      (0 ≤ gpio.toInt ∧ gpio.toInt < 8) ∨ 8 ≤ gpio.toUInt32.toUInt8 := by
  unfold Call.NamesItsPin shifted namedBit
  dsimp only
  rw [if_pos narrow]
  split
  · rename_i isPin
    rw [toNat_toUInt8_of_pin isPin]
    exact ⟨fun _ => Or.inl isPin, fun _ => rfl⟩
  · rename_i noPin
    have eight : UInt8.toNat 8 = 8 :=
      rfl
    have zero : UInt8.toNat 0 = 0 :=
      rfl
    rw [← UInt8.toNat_inj, UInt8.toNat_ofNat', UInt8.le_iff_toNat_le, eight,
      zero]
    generalize gpio.toUInt32.toUInt8.toNat = byte
    constructor
    · intro cleared
      right
      by_contra low
      have small : 2 ^ byte < 2 ^ 8 :=
        Nat.pow_lt_pow_right (by decide) (by omega)
      rw [Nat.mod_eq_of_lt small] at cleared
      exact absurd cleared (Nat.two_pow_pos byte).ne'
    · intro high
      exact Nat.mod_eq_zero_of_dvd (Nat.pow_dvd_pow 2 (high.resolve_left noPin))

namespace Device

variable {Rest : Type} {wide : UInt8 → UInt8} {chips : Chips Rest}
  {before after : Device (Supplied Rest)} {answer : Int32}

/-- The bias tee is forced on, and it is on. -/
structure ForcedOn (device : Device (Supplied Rest)) : Prop where
  forceBt : device.hardware.forceBt = 1
  drives : device.hardware.pins.DrivesPin0

/-- A call is one that returns. -/
theorem call_eq_some
    {device next : Device (Supplied Rest)}
    {call : Call} :
    device.call wide chips call = some next ↔
      ∃ answer, Yields (call.program wide chips) device answer next := by
  unfold Device.call Yields
  cases (call.program wide chips).run device with
  | error abort =>
      simp [Except.toOption]
  | ok outcome =>
      rcases outcome with ⟨answer, after⟩
      simp [Except.toOption]

end Device

/-! ## What the calls leave alone -/

section Calls

variable {Rest : Type} (wide : UInt8 → UInt8) (chips : Chips Rest)

/-- What a tuning shows of the pins: all but the pin of the band filter. -/
def Supplied.unfiltered
    (tunerType : TunerType)
    (supplied : Supplied Rest) :
    Int32 × UInt8 × UInt8 × UInt8 :=
  (supplied.forceBt,
    supplied.pins.gpo &&& ~~~filterBit tunerType,
    supplied.pins.gpd,
    supplied.pins.gpoe)

/-- The chips are not the pins. -/
theorem onRest_unfiltered
    {Value : Type}
    (tunerType : TunerType)
    (call : Program Rest Value) :
    Keeps (Supplied.unfiltered tunerType) (onRest call) := by
  intro supplied value next yields
  rcases yields_onPart.mp yields with ⟨_, _, rfl⟩
  rfl

/-- The board changes no pin but that of the band filter. -/
theorem suppliedBoard_spares
    (tunerType : TunerType) :
    (suppliedBoard wide chips tunerType).Spares
      (Supplied.unfiltered tunerType) where
  demodWriteReg _ _ _ _ :=
    onRest_unfiltered tunerType _
  init := by
    intro init found context
    simp only [suppliedBoard, suppliedTuner, Option.bind_map,
      Option.bind_eq_some_iff, Function.comp_apply, Option.map_eq_some_iff]
      at found
    rcases found with ⟨tuner, _, given, _, rfl⟩
    exact onRest_unfiltered tunerType _
  exit := by
    intro exit found
    simp only [suppliedBoard, suppliedTuner, Option.bind_map,
      Option.bind_eq_some_iff, Function.comp_apply, Option.map_eq_some_iff]
      at found
    rcases found with ⟨tuner, _, given, _, rfl⟩
    exact onRest_unfiltered tunerType _
  setFreq := by
    intro setFreq found context freq
    simp only [suppliedBoard, suppliedTuner, Option.bind_map,
      Option.bind_eq_some_iff, Function.comp_apply, Option.map_eq_some_iff]
      at found
    rcases found with ⟨tuner, _, given, _, rfl⟩
    dsimp only
    split
    · rename_i filtered
      refine Keeps.bind (Keeps.modify ?_) fun _ =>
        onRest_unfiltered tunerType _
      intro supplied
      have bit : shifted wide 6 = filterBit .fc0012 :=
        rfl
      have kept :=
        Pins.setGpioBit_andNot wide supplied.junk 6
          (if freq > 300000000 then 1 else 0) supplied.pins
      rw [bit] at kept
      rw [filtered]
      unfold Supplied.unfiltered
      rw [kept]
      rfl
    · exact onRest_unfiltered tunerType _

/-- The repeater is a register of the demodulator, whatever the tuner. -/
theorem setI2cRepeater_unfiltered
    (boardType tunerType : TunerType)
    (on : Bool) :
    Keeps (Device.seenBy (Supplied.unfiltered tunerType))
      (setI2cRepeater (suppliedBoard wide chips boardType) on) :=
  (onHardware_spares (onRest_unfiltered tunerType _)).bind fun _ =>
    Keeps.pure _

theorem offsetBandwidth_unfiltered
    (tunerType : TunerType)
    (on : Int32) :
    Keeps (Device.seenBy (Supplied.unfiltered tunerType))
      (offsetBandwidth wide chips on) := by
  unfold offsetBandwidth
  split
  · exact Keeps.pure _
  · exact Keeps.get.bind fun device =>
      (setI2cRepeater_unfiltered wide chips _ tunerType true).bind fun _ =>
        (onHardware_spares (onRest_unfiltered tunerType _)).bind fun _ =>
          setI2cRepeater_unfiltered wide chips _ tunerType false

/-- `rtlsdr_set_offset_tuning` of a tuner other than the R820T and the R828D. -/
theorem setOffsetTuning_unfiltered
    {before after : Device (Supplied Rest)}
    {on answer : Int32}
    (other : ¬ (before.tunerType = .r820t ∨ before.tunerType = .r828d))
    (yields : Yields (setOffsetTuning wide chips on) before answer after) :
    Device.seenBy (Supplied.unfiltered before.tunerType) after =
      Device.seenBy (Supplied.unfiltered before.tunerType) before := by
  have spares := suppliedBoard_spares wide chips
  unfold setOffsetTuning at yields
  rcases yields_bind.mp yields with ⟨_, _, got, rest⟩
  rcases yields_get.mp got with ⟨rfl, rfl⟩
  rw [if_neg other] at rest
  split at rest
  · rw [(yields_pure.mp rest).2]
  · rcases yields_bind.mp rest with ⟨_, aimed, isAimed, rest⟩
    have sameType : aimed.tunerType = before.tunerType :=
      (congrArg Device.tunerType (yields_modify.mp isAimed)).symm
    have sameSeen :
        Device.seenBy (Supplied.unfiltered before.tunerType) before =
          Device.seenBy (Supplied.unfiltered before.tunerType) aimed := by
      rw [← yields_modify.mp isAimed]
      rfl
    rcases yields_bind.mp rest with ⟨_, _, got, rest⟩
    rcases yields_get.mp got with ⟨rfl, rfl⟩
    rw [sameSeen, ← sameType]
    refine Keeps.bind ((spares _).setIfFreq _) (fun tunedIf => ?_) rest
    refine Keeps.bind (offsetBandwidth_unfiltered wide chips _ on) fun _ =>
      Keeps.get.bind fun device => Keeps.ite ?_ (Keeps.pure _)
    exact ((spares _).setCenterFreqAt 3 device.freq).bind fun _ =>
      Keeps.pure _

end Calls

/-! ## The calls return -/

section Nesting

variable {Rest : Type} {chips : Chips Rest}

/-- The chips do not call the library again. -/
structure Chips.Flat (chips : Chips Rest) : Prop where
  board : chips.board.Flat
  setBw :
    ∀ setBw ∈ chips.setBw, ∀ bw rest, ¬ TooDeep (setBw bw) rest

theorem not_tooDeep_onRest
    {Value : Type}
    {call : Program Rest Value}
    (flat : ∀ rest, ¬ TooDeep call rest)
    (supplied : Supplied Rest) :
    ¬ TooDeep (onRest call) supplied := by
  unfold onRest
  rw [tooDeep_onPart]
  exact flat supplied.rest

theorem Chips.Flat.suppliedBoard
    (flat : chips.Flat)
    (wide : UInt8 → UInt8)
    (tunerType : TunerType) :
    (suppliedBoard wide chips tunerType).Flat where
  demodWriteReg page addr val len :=
    not_tooDeep_onRest (flat.board.demodWriteReg page addr val len)
  init := by
    intro tuner given init isInit context
    rcases Option.map_eq_some_iff.mp given with ⟨bare, isBare, rfl⟩
    rcases Option.map_eq_some_iff.mp isInit with ⟨bareInit, isBareInit, rfl⟩
    exact not_tooDeep_onRest (flat.board.init bare isBare bareInit isBareInit _)
  exit := by
    intro tuner given exit isExit
    rcases Option.map_eq_some_iff.mp given with ⟨bare, isBare, rfl⟩
    rcases Option.map_eq_some_iff.mp isExit with ⟨bareExit, isBareExit, rfl⟩
    exact not_tooDeep_onRest (flat.board.exit bare isBare bareExit isBareExit)
  setFreq := by
    intro tuner given setFreq isSetFreq context freq supplied
    rcases Option.map_eq_some_iff.mp given with ⟨bare, isBare, rfl⟩
    rcases Option.map_eq_some_iff.mp isSetFreq with
      ⟨bareSetFreq, isBareSetFreq, rfl⟩
    have tunes :=
      not_tooDeep_onRest
        (flat.board.setFreq bare isBare bareSetFreq isBareSetFreq context freq)
    dsimp only
    split
    · simp only [RtlSdr.setGpioBit, tooDeep_bind, not_tooDeep_modify, tunes,
        and_false, exists_false, or_false, not_false_eq_true]
    · exact tunes supplied

theorem not_tooDeep_setBiasTeeGpio
    (wide : UInt8 → UInt8)
    (gpio on : Int32)
    (device : Device (Supplied Rest)) :
    ¬ TooDeep (setBiasTeeGpio wide gpio on) device := by
  unfold setBiasTeeGpio onHardware setGpioOutput setGpioBit
  simp only [tooDeep_bind, not_tooDeep_get, tooDeep_onPart,
    not_tooDeep_modify, not_tooDeep_pure, and_false, exists_false, or_false,
    not_false_eq_true]

theorem Chips.Flat.not_tooDeep_offsetBandwidth
    (flat : chips.Flat)
    (wide : UInt8 → UInt8)
    (on : Int32)
    (device : Device (Supplied Rest)) :
    ¬ TooDeep (offsetBandwidth wide chips on) device := by
  unfold offsetBandwidth
  split
  · exact not_tooDeep_pure
  · rename_i setBw given
    have sets := fun bw => not_tooDeep_onRest (flat.setBw setBw given bw)
    simp only [tooDeep_bind, not_tooDeep_get, onHardware, tooDeep_onPart,
      (flat.suppliedBoard wide _).not_tooDeep_setI2cRepeater, sets, and_false,
      exists_false, or_false, not_false_eq_true]

/-- The nesting of the calls never stops them. -/
theorem Chips.Flat.not_tooDeep_call
    (flat : chips.Flat)
    (wide : UInt8 → UInt8)
    (call : Call)
    (device : Device (Supplied Rest)) :
    ¬ TooDeep (call.program wide chips) device := by
  cases call with
  | setBiasTee on =>
      exact not_tooDeep_setBiasTeeGpio wide 0 on device
  | setBiasTeeGpio gpio on =>
      exact not_tooDeep_setBiasTeeGpio wide gpio on device
  | setOffsetTuning on =>
      change ¬ TooDeep (setOffsetTuning wide chips on) device
      unfold setOffsetTuning
      simp only [tooDeep_bind, not_tooDeep_get, false_or]
      rintro ⟨_, _, _, deep⟩
      split at deep
      · simp only [setBiasTee, tooDeep_bind, not_tooDeep_setBiasTeeGpio,
          not_tooDeep_pure, and_false, exists_false, or_false] at deep
      · split at deep
        · exact not_tooDeep_pure deep
        · simp only [tooDeep_bind, not_tooDeep_modify, not_tooDeep_get,
            (flat.suppliedBoard wide _).not_tooDeep_setIfFreq,
            flat.not_tooDeep_offsetBandwidth, false_or] at deep
          rcases deep with
            ⟨_, _, _, _, _, _, _, _, _, _, _, _, _, _, _, deep⟩
          split at deep
          · simp only [tooDeep_bind,
              setCenterFreq_not_tooDeep (flat.suppliedBoard wide _),
              not_tooDeep_pure, and_false, exists_false, or_false] at deep
          · exact not_tooDeep_pure deep

end Nesting

/-! ## A forced bias tee -/

namespace Device

variable {Rest : Type} {wide : UInt8 → UInt8} {chips : Chips Rest}
  {before after : Device (Supplied Rest)} {answer : Int32}

/-- What one call does to a forced bias tee and to the pins. -/
structure KeepsForced
    (bits : UInt8)
    (before after : Device (Supplied Rest)) : Prop where
  forceBt : after.hardware.forceBt = before.hardware.forceBt
  drives : before.ForcedOn → after.hardware.pins.DrivesPin0
  pins : before.hardware.pins.AgreeOutside bits after.hardware.pins

/-- `rtlsdr_set_bias_tee_gpio` touches the pins only. -/
theorem setBiasTeeGpio_hardware
    {gpio on : Int32}
    (yields : Yields (setBiasTeeGpio wide gpio on) before answer after) :
    after.hardware =
      { before.hardware with
        pins :=
          (before.hardware.pins.setGpioOutput wide before.hardware.junk
              gpio.toUInt32.toUInt8).setGpioBit wide before.hardware.junk
            gpio.toUInt32.toUInt8
            (if gpio = 0 ∧ before.hardware.forceBt ≠ 0 then 1 else on) } := by
  unfold setBiasTeeGpio at yields
  rcases yields_bind.mp yields with ⟨_, _, got, rest⟩
  rcases yields_get.mp got with ⟨rfl, rfl⟩
  rcases yields_bind.mp rest with ⟨_, _, output, rest⟩
  rcases yields_onPart.mp output with ⟨_, isOutput, rfl⟩
  rcases yields_bind.mp rest with ⟨_, _, bit, ended⟩
  rcases yields_onPart.mp bit with ⟨_, isDriven, rfl⟩
  rw [← (yields_pure.mp ended).2, ← yields_modify.mp isDriven,
    ← yields_modify.mp isOutput]

/-- Only the number 0 names pin 0. -/
theorem namedBit_low
    {gpio : Int32}
    (other : gpio ≠ 0) :
    (namedBit gpio).toBitVec.getLsbD 0 = false := by
  unfold namedBit
  split
  · rename_i isPin
    have notLow : gpio.toInt.toNat ≠ 0 := by
      intro isLow
      apply other
      apply Int32.toInt_inj.mp
      have zero : (0 : Int32).toInt = 0 :=
        rfl
      omega
    rw [UInt8.toBitVec_ofNat', BitVec.getLsbD_ofNat, Nat.testBit_two_pow,
      decide_eq_false notLow]
    rfl
  · rfl

/-- `rtlsdr_set_bias_tee_gpio` for a number that is the pin it becomes. -/
theorem setBiasTeeGpio_keepsForced
    {gpio on : Int32}
    (names : shifted wide gpio.toUInt32.toUInt8 = namedBit gpio)
    (yields : Yields (setBiasTeeGpio wide gpio on) before answer after) :
    KeepsForced (namedBit gpio) before after := by
  have same := setBiasTeeGpio_hardware yields
  refine ⟨?_, ?_, ?_⟩
  · rw [same]
  · intro forced
    rw [same]
    apply Pins.DrivesPin0.setGpioBit forced.drives
    by_cases isLow : gpio = 0
    · left
      rw [if_pos ⟨isLow, by rw [forced.forceBt]; decide⟩]
      decide
    · rw [names]
      exact Or.inr (namedBit_low isLow)
  · rw [same, ← names]
    exact Pins.setGpio_agreeOutside before.hardware.pins

/-- No call to the band filter is one to pin 0. -/
theorem filterBit_low
    (tunerType : TunerType) :
    (filterBit tunerType).toBitVec.getLsbD 0 = false := by
  cases tunerType <;> rfl

/-- `rtlsdr_set_offset_tuning` of a tuner that it tunes. -/
theorem setOffsetTuning_keepsForced
    {on : Int32}
    (other : ¬ (before.tunerType = .r820t ∨ before.tunerType = .r828d))
    (yields : Yields (setOffsetTuning wide chips on) before answer after) :
    KeepsForced (filterBit before.tunerType) before after := by
  have same := setOffsetTuning_unfiltered wide chips other yields
  rcases Prod.mk.inj same with ⟨forceBt, pins⟩
  rcases Prod.mk.inj pins with ⟨gpo, directions⟩
  rcases Prod.mk.inj directions with ⟨gpd, gpoe⟩
  refine ⟨forceBt, fun forced => ?_, gpo, ?_, ?_⟩
  · exact forced.drives.of_agree (filterBit_low _) gpo
  · rw [gpd]
  · rw [gpoe]

/-- Every call that names its pin keeps a forced bias tee on. -/
theorem call_keepsForced
    {call : Call}
    (names : call.NamesItsPin wide)
    (taken : before.call wide chips call = some after) :
    KeepsForced (call.pin before.tunerType) before after := by
  rcases call_eq_some.mp taken with ⟨answer, yields⟩
  cases call with
  | setBiasTee on =>
      exact setBiasTeeGpio_keepsForced rfl yields
  | setBiasTeeGpio gpio on =>
      exact setBiasTeeGpio_keepsForced names yields
  | setOffsetTuning on =>
      rw [Call.pin]
      split
      · rename_i onBiasTee
        change Yields (setOffsetTuning wide chips on) before answer after
          at yields
        unfold setOffsetTuning at yields
        rcases yields_bind.mp yields with ⟨_, _, got, rest⟩
        rcases yields_get.mp got with ⟨rfl, rfl⟩
        rw [if_pos onBiasTee] at rest
        rcases yields_bind.mp rest with ⟨_, _, biasTee, ended⟩
        rw [← (yields_pure.mp ended).2]
        exact setBiasTeeGpio_keepsForced rfl biasTee
      · rename_i other
        exact setOffsetTuning_keepsForced other yields

/--
As long as the number of each call of `rtlsdr_set_bias_tee_gpio` names the pin
that it becomes, a bias tee that was forced on stays on, and each call changes
its own pin only.
-/
theorem forced_biasTee_stays
    (wide : UInt8 → UInt8)
    (chips : Chips Rest)
    {opened : Device (Supplied Rest)}
    (forced : opened.ForcedOn)
    {calls : List Call}
    (names :
      EveryStep (Device.call wide chips)
        (fun _ call => call.NamesItsPin wide) opened calls) :
    EveryState (Device.call wide chips)
        (fun device => device.hardware.pins.DrivesPin0) opened calls ∧
      ∀ earlier call later before after,
        calls = earlier ++ call :: later →
          run (Device.call wide chips) opened earlier = some before →
          before.call wide chips call = some after →
          before.hardware.pins.AgreeOutside (call.pin before.tunerType)
            after.hardware.pins := by
  constructor
  · intro earlier later device split reached
    subst split
    have stays :=
      invariant_of_everyStep ForcedOn
        (fun before meets taken =>
          have kept := call_keepsForced meets taken
          ⟨kept.forceBt.trans before.forceBt, kept.drives before⟩)
        forced names.of_append reached
    exact stays.drives
  · intro earlier call later before after split reached taken
    have meets := names earlier call later before after split reached taken
    exact (call_keepsForced meets taken).pins

/-- Chips that answer each call with zero, without a tuner. -/
def silentChips : Chips Unit where
  board :=
    { demodWriteReg := fun _ _ _ _ => pure 0
      tuner := none }
  setBw := none

/-- A device with an R820T that was opened with its bias tee forced on. -/
def forcedDevice (pins : Pins) : Device (Supplied Unit) where
  rate := 2048000
  rtlXtal := 28800000
  directSampling := 0
  tunerType := .r820t
  tunXtal := 28800000
  freq := 100000000
  bw := 0
  offsFreq := 0
  corr := 0
  gain := 0
  directSamplingMode := 0
  hardware :=
    { pins := pins
      forceBt := 1
      junk := 0
      rest := () }

/-- The pins with the bias tee alone. -/
def biasTeePins : Pins where
  gpo := 0x01
  gpd := 0xfe
  gpoe := 0x01

theorem forcedDevice_forcedOn : (forcedDevice biasTeePins).ForcedOn :=
  ⟨rfl, rfl⟩

/-- Two calls that would turn the bias tee off, and one of a pin beside it. -/
theorem forced_biasTee_stays_r820t :
    EveryState (Device.call (fun _ => 0) silentChips)
        (fun device => device.hardware.pins.DrivesPin0)
        (forcedDevice biasTeePins)
        [.setOffsetTuning 0, .setBiasTeeGpio 0 0, .setBiasTeeGpio 5 0] ∧
      ∀ earlier call later before after,
        [.setOffsetTuning 0, .setBiasTeeGpio 0 0, .setBiasTeeGpio 5 0] =
            earlier ++ call :: later →
          run (Device.call (fun _ => 0) silentChips)
              (forcedDevice biasTeePins) earlier = some before →
          before.call (fun _ => 0) silentChips call = some after →
          before.hardware.pins.AgreeOutside (call.pin before.tunerType)
            after.hardware.pins := by
  apply forced_biasTee_stays (fun _ => 0) silentChips forcedDevice_forcedOn
  intro earlier call later before after split _ _
  have member :
      call ∈ [Call.setOffsetTuning 0, .setBiasTeeGpio 0 0,
        .setBiasTeeGpio 5 0] := by
    rw [split]
    exact List.mem_append_right _ List.mem_cons_self
  simp only [List.mem_cons, List.not_mem_nil, or_false] at member
  rcases member with rfl | rfl | rfl
  · exact True.intro
  · exact (by decide : shifted (fun _ => 0) (0 : Int32).toUInt32.toUInt8 =
      namedBit 0)
  · exact (by decide : shifted (fun _ => 0) (5 : Int32).toUInt32.toUInt8 =
      namedBit 5)

/-- The number 256 is not zero, but it becomes zero as a byte. -/
theorem forced_biasTee_off_256 :
    (forcedDevice biasTeePins).ForcedOn ∧
      ¬ EveryState (Device.call (fun _ => 0) silentChips)
        (fun device => device.hardware.pins.DrivesPin0)
        (forcedDevice biasTeePins) [.setBiasTeeGpio 256 0] := by
  refine ⟨forcedDevice_forcedOn, fun stays => ?_⟩
  have drives :=
    stays [.setBiasTeeGpio 256 0] []
      (forcedDevice { biasTeePins with gpo := 0 }) rfl rfl
  exact absurd drives (by decide)

end Device

end LibRtlSdr.RtlSdr
