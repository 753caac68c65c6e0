import LibRtlSdr.E4kGain
import LibRtlSdr.FcGains
import LibRtlSdr.R82xxGain
import LibRtlSdr.RtlSdrR82xx

namespace LibRtlSdr.RtlSdr

open DriverProgram ByteChip

/-!
# The advertised gains

`rtlsdr_get_tuner_gains` lists the gains of a tuner, `nearest_gain` picks the
one next to a target, and `rtlsdr_set_tuner_gain` asks the driver of the tuner
for it.  The drivers keep tables of their own.

Differences of gains are exact; those of targets up to 2^30 fit an `int`.
-/

/-- `rtlsdr_get_tuner_gains`; all gain values are expressed in tenths of a dB. -/
def tunerGains : TunerType → List Int
  | .e4000 =>
      [-10, 15, 40, 65, 90, 115, 140, 165, 190, 215, 240, 290, 340, 420]
  | .fc0012 => [-99, -40, 71, 179, 192]
  | .fc0013 =>
      [-99, -73, -65, -63, -60, -58, -54, 58, 61, 63, 65, 67, 68, 70, 71, 179,
        181, 182, 184, 186, 188, 191, 197]
  | .r820t | .r828d =>
      [0, 9, 14, 27, 37, 77, 87, 125, 144, 157, 166, 197, 207, 229, 254, 280,
        297, 328, 338, 364, 372, 386, 402, 421, 434, 439, 445, 480, 496]
  -- no gain values
  | .fc2580 | .unknown => [0]

/-- The tuners that have gain values. -/
def TunerType.HasGains (tunerType : TunerType) : Prop :=
  tunerType ≠ .fc2580 ∧ tunerType ≠ .unknown

/-- The loop of `nearest_gain`. -/
def closestGain (targetGain nearest : Int) : List Int → Int
  | [] => nearest
  | gain :: rest =>
      if (targetGain - gain).natAbs < (targetGain - nearest).natAbs then
        closestGain targetGain gain rest
      else
        closestGain targetGain nearest rest

/-- A stick, and the chip that is its tuner unless that is an R82xx. -/
structure Radio where
  stick : Stick
  chip : Chip

/-- A function of the stick. -/
def onStick
    {Value : Type}
    (call : Program Stick Value) :
    Program Radio Value :=
  onPart Radio.stick (fun stick radio => { radio with stick := stick }) call

/-- A function of the chip. -/
def onChip
    {Value : Type}
    (call : Program Chip Value) :
    Program Radio Value :=
  onPart Radio.chip (fun chip radio => { radio with chip := chip }) call

/-- The entries of `rtlsdr_tuner_iface_t` that are about gains; a missing one is `NULL`. -/
structure GainInterface where
  setGain : Option (Int → Program Radio Int32)
  setGainMode : Option (Bool → Program Radio Int32)

/-- The table `tuners`, as far as gains are concerned. -/
def gainInterface : TunerType → GainInterface
  | .unknown => ⟨none, none⟩
  | .e4000 =>
      ⟨some fun gain => onChip (E4k.setGain gain),
        some fun manual => onChip (E4k.enableManualGain manual)⟩
  | .fc0012 =>
      ⟨some fun gain => onChip (Fc0012.setGain gain).result,
        some fun _ => pure 0⟩
  | .fc0013 =>
      ⟨some fun gain => onChip (Fc0013.setLnaGain gain),
        some fun manual => onChip (Fc0013.setGainMode manual)⟩
  | .fc2580 => ⟨some fun _ => pure 0, some fun _ => pure 0⟩
  | .r820t | .r828d =>
      ⟨some fun gain => onStick (onTuner (R82xx.setGain true gain).result),
        some fun manual => onStick (onTuner (R82xx.setGain manual 0).result)⟩

/-- The board of a radio, with whatever else its tuner can be asked for. -/
def radioBoard (tuner : Option (TunerInterface Radio)) : Board Radio where
  demodWriteReg page addr val len :=
    onStick (r82xxBoard.demodWriteReg page addr val len)
  tuner := tuner

namespace Radio

variable (tuner : Option (TunerInterface Radio))

/-- Call a function of the tuner, if it has it, through the repeater. -/
def callTuner :
    Option (Program Radio Int32) → Program (Device Radio) Int32
  | none => pure 0
  | some call => do
      setI2cRepeater (radioBoard tuner) true
      onHardware call

/-- `rtlsdr_set_tuner_gain`. -/
def setTunerGain (gain : Int) : Program (Device Radio) Int32 := do
  let device ← get
  let answer ← callTuner tuner
    ((gainInterface device.tunerType).setGain.map fun setGain => setGain gain)
  modify fun device => { device with gain := if answer = 0 then gain else 0 }
  return answer

/-- `rtlsdr_set_tuner_gain_mode`. -/
def setTunerGainMode (manual : Bool) : Program (Device Radio) Int32 := do
  let device ← get
  callTuner tuner
    ((gainInterface device.tunerType).setGainMode.map fun setGainMode =>
      setGainMode manual)

/-- `nearest_gain`. -/
def nearestGain (targetGain : Int) : Program (Device Radio) Int := do
  let answer ← setTunerGainMode tuner true
  if answer < 0 then
    return answer.toInt
  else
    let device ← get
    match tunerGains device.tunerType with
    | [] => return 0
    | gain :: rest => return closestGain targetGain gain (gain :: rest)

end Radio

/-- The chip of the tuner is programmed to the gain. -/
def Radio.ProgramsGain (radio : Radio) (gain : Int) : TunerType → Prop
  | .e4000 => E4k.ProgramsGain radio.chip.registers gain
  | .fc0012 => (gain, radio.chip.registers 0x13 &&& 0x1f) ∈ Fc0012.lnaGains
  | .fc0013 => (gain, radio.chip.registers 0x14 &&& 0x1f) ∈ Fc0013.lnaGains
  | .r820t | .r828d => R82xx.programmedGain radio.stick.tuner.bus.chip = gain
  | .fc2580 | .unknown => False

/--
Every transfer succeeds.  The driver of the E4000 reads a register to find out
whether it must be written, so its chip must show what the register holds.
-/
structure Radio.Ready (tunerType : TunerType) (radio : Radio) : Prop where
  demod : ∀ place, radio.stick.demod.answers place = true
  tuner : radio.stick.tuner.AllDone
  chip : radio.chip.Answering
  honest : tunerType = .e4000 → radio.chip.Honest

/-- A device of some type whose radio is ready. -/
structure Device.ReadyAs
    (type : TunerType)
    (device : Device Radio) : Prop where
  tunerType : device.tunerType = type
  radio : device.hardware.Ready type

section Search

variable {targetGain : Int}

/-- The search ends at the gain it starts with or at one of the list. -/
theorem closestGain_mem
    (nearest : Int)
    (gains : List Int) :
    closestGain targetGain nearest gains = nearest ∨
      closestGain targetGain nearest gains ∈ gains := by
  induction gains generalizing nearest with
  | nil =>
      exact Or.inl rfl
  | cons gain rest inductionHypothesis =>
      rw [closestGain]
      split
      · rcases inductionHypothesis gain with same | member
        · rw [same]
          exact Or.inr List.mem_cons_self
        · exact Or.inr (List.mem_cons_of_mem _ member)
      · rcases inductionHypothesis nearest with same | member
        · exact Or.inl same
        · exact Or.inr (List.mem_cons_of_mem _ member)

/-- No gain of the list, nor the one it starts with, is closer than what the search ends at. -/
theorem closestGain_le
    (nearest : Int)
    (gains : List Int) :
    ∀ other ∈ nearest :: gains,
      (targetGain - closestGain targetGain nearest gains).natAbs ≤
        (targetGain - other).natAbs := by
  induction gains generalizing nearest with
  | nil =>
      intro other member
      rw [List.mem_singleton.mp member]
      exact Nat.le_refl _
  | cons gain rest inductionHypothesis =>
      have fromGain := inductionHypothesis gain
      have fromNearest := inductionHypothesis nearest
      have head := fromGain gain List.mem_cons_self
      have kept := fromNearest nearest List.mem_cons_self
      intro other member
      rw [closestGain]
      rcases List.mem_cons.mp member with rfl | later
      · split
        · exact head.trans (Nat.le_of_lt ‹_›)
        · exact kept
      · rcases List.mem_cons.mp later with rfl | inRest
        · split
          · exact head
          · exact kept.trans (Nat.le_of_not_lt ‹_›)
        · split
          · exact fromGain other (List.mem_cons_of_mem _ inRest)
          · exact fromNearest other (List.mem_cons_of_mem _ inRest)

end Search

section Hardware

variable {tunerType : TunerType} {before : Radio} {gain : Int}

/-- The registers of a chip that is ready as an E4000. -/
theorem Radio.Ready.holds
    (ready : before.Ready .e4000) :
    before.chip.Holds before.chip.registers :=
  ⟨ready.chip, ready.honest rfl, rfl⟩

/-- A chip whose transfers succeed may take the place of the chip. -/
theorem Radio.Ready.withChip
    (ready : before.Ready tunerType)
    {chip : Chip}
    (answering : chip.Answering)
    (honest : tunerType = .e4000 → chip.Honest) :
    Radio.Ready tunerType { before with chip := chip } :=
  ⟨ready.demod, ready.tuner, answering, honest⟩

/-- A function of an R82xx leaves a radio that is ready, with what it reaches. -/
theorem Radio.Ready.onR82xx
    (ready : before.Ready tunerType)
    {call : Program R82xx.Priv Int32}
    {Reached : R82xx.Priv → Prop}
    (returns :
      Returns call before.stick.tuner 0 (fun tuner =>
        tuner.AllDone ∧ Reached tuner)) :
    Returns (onStick (onTuner call)) before 0 (fun after =>
      after.Ready tunerType ∧ Reached after.stick.tuner) := by
  have onTheStick :
      Returns (onTuner call) before.stick 0 (fun stick =>
        Radio.Ready tunerType { before with stick := stick } ∧
          Reached stick.tuner) := by
    refine returns.onPart ?_
    rintro tuner ⟨done, reached⟩
    exact ⟨⟨ready.demod, done, ready.chip, ready.honest⟩, reached⟩
  exact onTheStick.onPart fun _ after => after

/-- A chip with a code in five bits of a register, for an entry of a table. -/
theorem Radio.Ready.withCode
    (ready : before.Ready tunerType)
    (isOther : tunerType ≠ .e4000)
    {reg code : UInt8}
    {table : List (Int × UInt8)}
    (isEntry : (gain, code) ∈ table)
    (chip : Chip)
    (holdsCode : FcTuner.HoldsCode reg code chip) :
    Radio.Ready tunerType { before with chip := chip } ∧
      (gain, chip.registers reg &&& 0x1f) ∈ table := by
  rcases holdsCode with ⟨answering, isCode⟩
  refine ⟨ready.withChip answering fun same => absurd same isOther, ?_⟩
  rw [isCode]
  exact isEntry

/-- A manual gain of an R82xx that its steps reach exactly. -/
theorem Radio.Ready.setGain_r82xx
    (ready : before.Ready tunerType)
    (reached : R82xx.manualGain gain = gain) :
    Returns (onStick (onTuner (R82xx.setGain true gain).result)) before 0
      (fun after =>
        after.Ready tunerType ∧
          R82xx.programmedGain after.stick.tuner.bus.chip = gain) := by
  rcases R82xx.setGain_manual_returns ready.tuner gain with
    ⟨tuner, yields, done⟩
  have programs : R82xx.programmedGain tuner.bus.chip = gain :=
    (congrArg R82xx.indexGain (R82xx.setGain_programs yields)).trans reached
  have returns :
      Returns (R82xx.setGain true gain).run before.stick.tuner (.ok ())
        (fun tuner =>
          tuner.AllDone ∧ R82xx.programmedGain tuner.bus.chip = gain) :=
    ⟨tuner, yields, done, programs⟩
  exact @Radio.Ready.onR82xx tunerType before ready _
    (fun tuner => R82xx.programmedGain tuner.bus.chip = gain) returns.result

/-- The driver of a tuner programs each gain that is advertised for it. -/
theorem gainInterface_setGain
    (hasGains : tunerType.HasGains)
    (ready : before.Ready tunerType)
    (isAdvertised : gain ∈ tunerGains tunerType) :
    ∃ setGain,
      (gainInterface tunerType).setGain = some setGain ∧
        Returns (setGain gain) before 0 (fun after =>
          after.Ready tunerType ∧ after.ProgramsGain gain tunerType) := by
  have reached :
      ∀ gain ∈ tunerGains .r820t, R82xx.manualGain gain = gain := by
    have onTheWay :
        ∀ gain ∈ tunerGains .r820t, gain ∈ (List.range 30).map R82xx.gainAt := by
      decide
    intro gain isAdvertised
    rcases List.mem_map.mp (onTheWay gain isAdvertised) with
      ⟨place, inRange, rfl⟩
    exact R82xx.manualGain_gainAt (Nat.le_of_lt_succ (List.mem_range.mp inRange))
  cases tunerType with
  | unknown =>
      exact absurd rfl hasGains.2
  | e4000 =>
      have splits : ∀ gain ∈ tunerGains .e4000, E4k.Splits gain := by
        decide
      refine ⟨_, rfl, (E4k.setGain_returns ready.holds
        (splits gain isAdvertised)).onPart ?_⟩
      rintro chip ⟨registers, holds, programs⟩
      refine ⟨ready.withChip holds.answering fun _ => holds.honest, ?_⟩
      rw [← holds.registers] at programs
      exact programs
  | fc0012 =>
      have listed :
          ∀ gain ∈ tunerGains .fc0012,
            (gain, Fc0012.gainBits gain) ∈ Fc0012.lnaGains := by
        decide
      exact ⟨_, rfl, (Fc0012.setGain_returns ready.chip gain).onPart
        (ready.withCode (by decide) (listed gain isAdvertised))⟩
  | fc0013 =>
      have listed :
          ∀ gain ∈ tunerGains .fc0013,
            (gain, Fc0013.lnaBits gain Fc0013.lnaGains) ∈
              Fc0013.lnaGains := by
        decide
      exact ⟨_, rfl, (Fc0013.setLnaGain_returns ready.chip gain).onPart
        (ready.withCode (by decide) (listed gain isAdvertised))⟩
  | fc2580 =>
      exact absurd rfl hasGains.1
  | r820t =>
      exact ⟨_, rfl, ready.setGain_r82xx (reached gain isAdvertised)⟩
  | r828d =>
      exact ⟨_, rfl, ready.setGain_r82xx (reached gain isAdvertised)⟩

/-- The driver of a tuner can be told that its gain is set by hand. -/
theorem gainInterface_setGainMode
    (hasGains : tunerType.HasGains)
    (ready : before.Ready tunerType) :
    ∃ setGainMode,
      (gainInterface tunerType).setGainMode = some setGainMode ∧
        Returns (setGainMode true) before 0 (Radio.Ready tunerType) := by
  have onR82xx :
      Returns (onStick (onTuner (R82xx.setGain true 0).result)) before 0
        (Radio.Ready tunerType) := by
    have returns := (R82xx.setGain_manual_returns ready.tuner 0).result
    exact (ready.onR82xx (returns.mono fun _ done => ⟨done, trivial⟩)).mono
      fun _ after => after.1
  cases tunerType with
  | unknown =>
      exact absurd rfl hasGains.2
  | e4000 =>
      refine ⟨_, rfl, (E4k.enableManualGain_returns ready.holds).onPart ?_⟩
      rintro chip ⟨registers, holds⟩
      exact ready.withChip holds.answering fun _ => holds.honest
  | fc0012 =>
      exact ⟨_, rfl, Returns.pure ready⟩
  | fc0013 =>
      refine ⟨_, rfl, (Fc0013.setGainMode_returns ready.chip true).onPart ?_⟩
      intro chip answering
      exact ready.withChip answering fun absurdity => by cases absurdity
  | fc2580 =>
      exact absurd rfl hasGains.1
  | r820t =>
      exact ⟨_, rfl, onR82xx⟩
  | r828d =>
      exact ⟨_, rfl, onR82xx⟩

end Hardware

section Calls

variable {tuner : Option (TunerInterface Radio)} {tunerType : TunerType}
  {before : Device Radio}

/-- A call into the hardware leaves the type of the tuner alone. -/
theorem Device.ReadyAs.onHardware
    (ready : before.ReadyAs tunerType)
    {call : Program Radio Int32}
    {Reached : Radio → Prop}
    (returns : Returns call before.hardware 0 Reached) :
    Returns (RtlSdr.onHardware call) before 0 (fun after =>
      after.tunerType = tunerType ∧ Reached after.hardware) :=
  returns.onPart fun _ reached => ⟨ready.tunerType, reached⟩

/-- The repeater can be turned on. -/
theorem setI2cRepeater_ready
    (ready : before.ReadyAs tunerType)
    (on : Bool) :
    Returns (setI2cRepeater (radioBoard tuner) on) before ()
      (Device.ReadyAs tunerType) := by
  have onTheStick :
      ∀ page addr val len,
        Returns (r82xxBoard.demodWriteReg page addr val len)
          before.hardware.stick 0 (fun stick =>
            Radio.Ready tunerType
              { before.hardware with stick := stick }) := by
    intro page addr val len
    unfold r82xxBoard
    apply Returns.getBind
    rw [if_pos (ready.radio.demod _)]
    apply Returns.modifyBind
    exact Returns.pure
      ⟨ready.radio.demod, ready.radio.tuner, ready.radio.chip,
        ready.radio.honest⟩
  have onTheRadio :
      ∀ page addr val len,
        Returns ((radioBoard tuner).demodWriteReg page addr val len)
          before.hardware 0 (Radio.Ready tunerType) := by
    intro page addr val len
    unfold radioBoard onStick
    dsimp only
    exact (onTheStick page addr val len).onPart fun _ ready => ready
  apply (ready.onHardware (onTheRadio 1 0x01 _ 1)).bind
  rintro after ⟨sameType, radio⟩
  exact Returns.pure ⟨sameType, radio⟩

/-- A function of the tuner is called through the repeater. -/
theorem callTuner_returns
    (ready : before.ReadyAs tunerType)
    {call : Program Radio Int32}
    {Reached : Radio → Prop}
    (returns :
      ∀ {radio : Radio},
        radio.Ready tunerType → Returns call radio 0 Reached) :
    Returns (Radio.callTuner tuner (some call)) before 0 (fun after =>
      after.tunerType = tunerType ∧ Reached after.hardware) := by
  apply (setI2cRepeater_ready ready true).bind
  intro opened ready
  exact ready.onHardware (returns ready.radio)

/-- A gain that is advertised for the tuner is set. -/
theorem setTunerGain_returns
    (hasGains : tunerType.HasGains)
    (ready : before.ReadyAs tunerType)
    {gain : Int}
    (isAdvertised : gain ∈ tunerGains tunerType) :
    Returns (Radio.setTunerGain tuner gain) before 0 (fun after =>
      after.gain = gain ∧ after.hardware.ProgramsGain gain tunerType) := by
  rcases gainInterface_setGain hasGains ready.radio isAdvertised with
    ⟨setGain, present, _⟩
  have programs :
      ∀ {radio : Radio},
        radio.Ready tunerType →
        Returns (setGain gain) radio 0 (fun after =>
          after.Ready tunerType ∧ after.ProgramsGain gain tunerType) := by
    intro radio ready
    rcases gainInterface_setGain hasGains ready isAdvertised with
      ⟨other, alsoPresent, returns⟩
    cases present.symm.trans alsoPresent
    exact returns
  unfold Radio.setTunerGain
  apply Returns.getBind
  rw [ready.tunerType, present]
  apply (callTuner_returns ready programs).bind
  rintro middle ⟨_, _, programmed⟩
  apply Returns.modifyBind
  exact Returns.pure ⟨rfl, programmed⟩

/-- The gain of the tuner can be set by hand. -/
theorem setTunerGainMode_returns
    (hasGains : tunerType.HasGains)
    (ready : before.ReadyAs tunerType) :
    Returns (Radio.setTunerGainMode tuner true) before 0
      (Device.ReadyAs tunerType) := by
  rcases gainInterface_setGainMode hasGains ready.radio with
    ⟨setGainMode, present, _⟩
  have readies :
      ∀ {radio : Radio},
        radio.Ready tunerType →
        Returns (setGainMode true) radio 0 (Radio.Ready tunerType) := by
    intro radio ready
    rcases gainInterface_setGainMode hasGains ready with
      ⟨other, alsoPresent, returns⟩
    cases present.symm.trans alsoPresent
    exact returns
  unfold Radio.setTunerGainMode
  apply Returns.getBind
  rw [ready.tunerType, present]
  exact (callTuner_returns ready readies).mono
    fun _ reached => ⟨reached.1, reached.2⟩

/-- The gain that `nearest_gain` returns. -/
def nearestOf (targetGain : Int) (tunerType : TunerType) : Int :=
  closestGain targetGain ((tunerGains tunerType).headD 0)
    (tunerGains tunerType)

theorem nearestGain_returns
    (hasGains : tunerType.HasGains)
    (ready : before.ReadyAs tunerType)
    (targetGain : Int) :
    Returns (Radio.nearestGain tuner targetGain) before
      (nearestOf targetGain tunerType) (Device.ReadyAs tunerType) := by
  unfold Radio.nearestGain
  apply (setTunerGainMode_returns hasGains ready).bind
  intro middle ready
  rw [if_neg (by decide)]
  apply Returns.getBind
  rw [ready.tunerType]
  cases tunerType <;>
    exact Returns.pure ready

/-- What it returns is advertised. -/
theorem nearestOf_mem
    (targetGain : Int)
    (tunerType : TunerType) :
    nearestOf targetGain tunerType ∈ tunerGains tunerType := by
  have first :
      (tunerGains tunerType).headD 0 ∈ tunerGains tunerType := by
    cases tunerType <;>
      decide
  unfold nearestOf
  rcases @closestGain_mem targetGain ((tunerGains tunerType).headD 0)
    (tunerGains tunerType) with same | member
  · rw [same]
    exact first
  · exact member

end Calls

/--
For every tuner that has gain values, and every target: `nearest_gain` returns
an advertised gain that no other is closer than, and wherever transfers succeed
`rtlsdr_set_tuner_gain` accepts that gain and programs exactly it.
-/
theorem nearestGain_programmed
    (tuner : Option (TunerInterface Radio))
    {tunerType : TunerType}
    (hasGains : tunerType.HasGains)
    {before : Device Radio}
    (ready : before.ReadyAs tunerType)
    (targetGain : Int) :
    ∃ nearest,
      Returns (Radio.nearestGain tuner targetGain) before nearest
          (Device.ReadyAs tunerType) ∧
        nearest ∈ tunerGains tunerType ∧
        (∀ other ∈ tunerGains tunerType,
          (targetGain - nearest).natAbs ≤ (targetGain - other).natAbs) ∧
        ∀ later : Device Radio,
          later.ReadyAs tunerType →
          Returns (Radio.setTunerGain tuner nearest) later 0 (fun after =>
            after.gain = nearest ∧
              after.hardware.ProgramsGain nearest tunerType) := by
  have isAdvertised := nearestOf_mem targetGain tunerType
  refine ⟨nearestOf targetGain tunerType,
    nearestGain_returns hasGains ready targetGain, isAdvertised, ?_, ?_⟩
  · intro other member
    exact closestGain_le _ _ other (List.mem_cons_of_mem _ member)
  · intro later ready
    exact setTunerGain_returns hasGains ready isAdvertised

/-- A stick with an E4000 that answers. -/
def e4000Radio : Device Radio where
  rate := 0
  rtlXtal := 28800000
  directSampling := 0
  tunerType := .e4000
  tunXtal := 28800000
  freq := 0
  bw := 0
  offsFreq := 0
  corr := 0
  gain := 0
  directSamplingMode := 0
  hardware :=
    { stick :=
        { demod := ⟨fun _ _ => 0, fun _ => true, 0⟩
          tuner := R82xx.poweredTuner }
      chip := ⟨fun _ => 0, fun _ => true, 0, fun _ _ held => held⟩ }

/-- A target of 10 dB on an E4000. -/
theorem nearestGain_programmed_e4000 :
    ∃ nearest,
      Returns (Radio.nearestGain none 100) e4000Radio nearest
          (Device.ReadyAs .e4000) ∧
        nearest ∈ tunerGains .e4000 ∧
        (∀ other ∈ tunerGains .e4000,
          (100 - nearest).natAbs ≤ (100 - other).natAbs) ∧
        ∀ later : Device Radio,
          later.ReadyAs .e4000 →
          Returns (Radio.setTunerGain none nearest) later 0 (fun after =>
            after.gain = nearest ∧
              after.hardware.ProgramsGain nearest .e4000) := by
  have hasGains : TunerType.e4000.HasGains :=
    ⟨by decide, by decide⟩
  have ready : e4000Radio.ReadyAs .e4000 :=
    ⟨rfl, fun _ => rfl, ⟨fun _ => rfl, fun _ => rfl⟩,
      fun _ => rfl, fun _ _ _ _ => rfl⟩
  exact nearestGain_programmed none hasGains ready 100

end LibRtlSdr.RtlSdr
