import LibRtlSdr.R82xxSettings

namespace LibRtlSdr.R82xx

open DriverProgram MaskedWrites OverlayWrites

/-!
# The settings after an initialisation

`r82xx_init` writes all registers anew, calibrates the filter and sets it up for
a channel of 6 MHz.  What it leaves of the settings does not depend on those
before, but only on what the chip reports of its calibration.
-/

namespace Report

variable (report : Report)

/-- The code that a round of the calibration reads at a place, if the PLL locks. -/
def roundCode (place : Nat) : Option Byte :=
  if report.locks (place + 1) then
    some (report.reported (report.afterLock (place + 1)) 4 &&& 0x0f)
  else
    none

/-- The place after a round of the calibration. -/
def afterRound (place : Nat) : Nat :=
  if report.locks (place + 1) then
    report.afterLock (place + 1) + 1
  else
    report.afterLock (place + 1)

/-- The code of the whole calibration, and the place after it. -/
def calibration (place : Nat) : Option Byte × Nat :=
  match report.roundCode place with
  | none => (none, report.afterRound place)
  | some code =>
      if code ≠ 0 ∧ code ≠ 0x0f then
        (some code, report.afterRound place)
      else
        (report.roundCode (report.afterRound place),
          report.afterRound (report.afterRound place))

end Report

/-- The code that the filter is set to: the narrowest instead of the widest. -/
def narrowed (code : Byte) : Byte :=
  if code = 0x0f then 0 else code

/-- The registers that `r82xx_init` leaves, by the code of the calibration. -/
def initRegisters : Option Byte → Nat → Byte
  | none, 0x05 => 0x83
  | some _, 0x05 => 0x03
  | _, 0x07 => 0x75
  | _, 0x0c => 0xf0
  | none, 0x0a => 0xd6
  | some code, 0x0a => 0xd0 ||| narrowed code
  | none, 0x0b => 0x6c
  | some _, 0x0b => 0x6b
  | _, _ => 0

/-- The settings that `r82xx_init` leaves when it begins at a place. -/
def initSettings (report : Report) (place : Nat) : Settings where
  registers := initRegisters (report.calibration place).1
  intFreq := 3570000
  input := 0
  initDone := true
  place := (report.calibration place).2

theorem initRegisters_vga
    (calibrated : Option Byte) :
    initRegisters calibrated 0x0c = 0xf0 := by
  cases calibrated <;>
    rfl

/-- An initialisation wakes the tuner. -/
theorem initSettings_awake
    (report : Report)
    (place : Nat) :
    (initSettings report place).Awake := by
  have vga : (initSettings report place).registers 0x0c = 0xf0 :=
    initRegisters_vga _
  unfold Settings.Awake
  rw [vga]
  decide

/-- The registers of `r82xx_init_array`. -/
def arrayRegisters (reg : Nat) : Byte :=
  initArray.getD (reg - 5) 0

variable {report : Report} {settings : Settings} {before : Priv}

/-- Every register of the settings is one of these. -/
theorem forall_settingRegisters
    {Holds : Nat → Prop}
    (lna : Holds 0x05)
    (mixer : Holds 0x07)
    (vga : Holds 0x0c)
    (filter : Holds 0x0a)
    (corner : Holds 0x0b) :
    ∀ reg ∈ settingRegisters, Holds reg := by
  intro reg member
  simp only [settingRegisters, List.mem_cons, List.not_mem_nil,
    or_false] at member
  rcases member with rfl | rfl | rfl | rfl | rfl
  · exact lna
  · exact mixer
  · exact vga
  · exact filter
  · exact corner

/-- The whole array is written to the chip and to the shadow registers. -/
theorem write_initArray_returns
    (wired : Wired report before) :
    Returns (write 0x05 initArray).run before (.ok ())
      (Shows report
        { registers := arrayRegisters
          intFreq := before.intFreq
          input := before.input
          initDone := before.initDone
          place := before.bus.reads }) := by
  refine ⟨before.written 0x05 initArray,
    (yields_write wired.done).mpr ⟨rfl, rfl⟩, ?_⟩
  refine
    { toWired := wired.of_environment rfl
      shadow := forall_settingRegisters ?_ ?_ ?_ ?_ ?_
      registers := forall_settingRegisters ?_ ?_ ?_ ?_ ?_
      intFreq := rfl
      input := rfl
      initDone := rfl
      place := rfl } <;>
    rfl

/-- Storing the array again in the shadow registers does not matter. -/
theorem Shows.shadowStore
    (shows : Shows report settings before)
    (isArray : settings.registers = arrayRegisters) :
    Shows report settings (shadowStore 0x05 initArray before) where
  toWired := shows.toWired.of_environment rfl
  shadow := by
    rw [isArray]
    exact forall_settingRegisters rfl rfl rfl rfl rfl
  registers := shows.registers
  intFreq := shows.intFreq
  input := shows.input
  initDone := shows.initDone
  place := shows.place

/-- A register that holds what the calibration writes to it holds it afterwards. -/
theorem idle_of_corner
    {writes : List (MaskedWrite Nat 8)}
    (corner : settings.registers 0x0b = 0x6c)
    (idle : valueAfter writes 0x0b 0x6c = 0x6c)
    (apart :
      ∀ write ∈ writes,
        write.reg ∈ settingRegisters → write.reg = 0x0b) :
    ∀ reg ∈ settingRegisters,
      valueAfter writes reg (settings.registers reg) =
        settings.registers reg := by
  intro reg member
  by_cases isCorner : reg = 0x0b
  · rw [isCorner, corner]
    exact idle
  · refine valueAfter_of_untouched ?_ _
    rintro write inWrites rfl
    exact isCorner (apart write inWrites member)

/-- A round of the calibration leaves the settings as they are. -/
theorem calibrationRound_returns
    (shows : Shows report settings before)
    (corner : settings.registers 0x0b = 0x6c) :
    Returns calibrationRound.run before
      (.ok (report.roundCode settings.place))
      (fun after =>
        (∀ code ∈ report.roundCode settings.place,
          after.filCalCode = code) ∧
        Shows report
          (settings.atPlace (report.afterRound settings.place)) after) := by
  unfold calibrationRound
  refine (writeMasks_idle shows (by simp [Shadowed])
    (idle_of_corner corner (by decide) (by decide))).runBind fun _ shows => ?_
  refine (setPll_returns shows (by decide)).runBind fun last looked => ?_
  rcases looked with ⟨hasLock, shows⟩
  refine Returns.runGetBind ?_
  rw [hasLock]
  unfold Report.roundCode Report.afterRound
  split
  · refine (writeMasks_idle shows (by simp [Shadowed])
      (idle_of_corner corner (by decide) (by decide))).runBind
        fun _ shows => ?_
    refine (read_returns shows).runBind fun middle shows => ?_
    refine Returns.runBind (Returns.runModify rfl) fun _ same => ?_
    subst same
    refine Returns.runPure ⟨?_, shows.note middle.hasLock _⟩
    intro code isCode
    exact Option.some.inj isCode
  · refine Returns.runPure ⟨?_, shows⟩
    intro code absurdity
    cases absurdity

/-- So does the whole calibration. -/
theorem calibrate_returns
    (shows : Shows report settings before)
    (corner : settings.registers 0x0b = 0x6c) :
    Returns calibrate.run before
      (.ok (report.calibration settings.place).1.isSome)
      (fun after =>
        (∀ code ∈ (report.calibration settings.place).1,
          after.filCalCode = code) ∧
        Shows report
          (settings.atPlace (report.calibration settings.place).2)
          after) := by
  unfold calibrate Report.calibration
  refine (calibrationRound_returns shows corner).runBind
    fun first rounded => ?_
  rcases rounded with ⟨noted, shows⟩
  cases round : report.roundCode settings.place with
  | none =>
      refine Returns.runPure ⟨?_, shows⟩
      intro code absurdity
      cases absurdity
  | some code =>
      dsimp only
      split
      · refine Returns.runPure ⟨?_, shows⟩
        rw [← round]
        exact noted
      · refine (calibrationRound_returns shows corner).runBind
          fun second rounded => ?_
        simp only [Settings.atPlace_place] at rounded ⊢
        cases again : report.roundCode (report.afterRound settings.place) with
        | none =>
            rw [again] at rounded
            exact Returns.runPure rounded
        | some code =>
            rw [again] at rounded
            exact Returns.runPure rounded

/-- A code of the calibration has four bits. -/
theorem calibration_four_bits
    {place : Nat}
    {code : Byte}
    (isCode : code ∈ (report.calibration place).1) :
    code &&& 0x0f = code := by
  have round :
      ∀ {place : Nat} {code : Byte},
        code ∈ report.roundCode place → code &&& 0x0f = code := by
    intro place code isCode
    unfold Report.roundCode at isCode
    split at isCode
    · rw [← Option.some.inj isCode, BitVec.and_assoc, BitVec.and_self]
    · cases isCode
  unfold Report.calibration at isCode
  split at isCode
  · cases isCode
  · rename_i first isFirst
    split at isCode
    · exact round (isFirst.trans isCode)
    · exact round isCode

/-- The writes for a calibrated filter, on the registers of an uncalibrated one. -/
theorem valueAfter_calibrated :
    ∀ code : Byte,
      code &&& 0x0f = code →
      ∀ reg ∈ settingRegisters,
        valueAfter
            [⟨0x0a, 0x10 ||| narrowed code, 0x1f⟩, ⟨0x0b, 0x6b, 0xef⟩,
              ⟨0x07, 0x00, 0x80⟩, ⟨0x06, 0x10, 0x30⟩, ⟨0x1e, 0x60, 0x60⟩,
              ⟨0x05, 0x01, 0x80⟩, ⟨0x1f, 0x00, 0x80⟩, ⟨0x0f, 0x00, 0x80⟩,
              ⟨0x19, 0x60, 0x60⟩]
            reg (initRegisters none reg) =
          initRegisters (some code) reg := by
  decide +kernel

/-- The input and the filter current of the standard are selected already. -/
theorem valueAfter_sysfreq :
    ∀ code : Byte,
      code &&& 0x0f = code →
      ∀ reg ∈ settingRegisters,
        valueAfter
            [⟨0x05, 0x00, 0x60⟩, ⟨0x06, 0x00, 0x08⟩, ⟨0x11, 0x38, 0x38⟩,
              ⟨0x17, 0xa0, 0x30⟩, ⟨0x0a, 0x40, 0x60⟩]
            reg (initRegisters (some code) reg) =
          initRegisters (some code) reg := by
  decide +kernel

theorem finishTvStandard_returns
    (shows : Shows report settings before)
    (isInit : settings.registers = initRegisters none) :
    Returns finishTvStandard.run before (.ok ())
      (Shows report
        { settings with
          registers := initRegisters (report.calibration settings.place).1
          place := (report.calibration settings.place).2 }) := by
  have corner : settings.registers 0x0b = 0x6c := by
    rw [isInit]
    rfl
  unfold finishTvStandard
  refine (calibrate_returns shows corner).runBind fun middle calibrated => ?_
  rcases calibrated with ⟨noted, shows⟩
  cases outcome : (report.calibration settings.place).1 with
  | none =>
      refine Returns.runPure ?_
      rw [← isInit]
      exact shows
  | some code =>
      have fourBits : code &&& 0x0f = code := calibration_four_bits outcome
      have isCode : middle.filCalCode = code := noted code outcome
      have narrow :
          (if middle.filCalCode = 0x0f then
              { middle with filCalCode := 0 }
            else middle) =
            { middle with filCalCode := narrowed code } := by
        rw [← isCode]
        unfold narrowed
        split <;>
          rfl
      rw [Option.isSome_some, if_pos rfl]
      refine Returns.runBind (Returns.runModify rfl) fun _ same => ?_
      rw [narrow] at same
      subst same
      refine Returns.runGetBind ?_
      refine (writeMasks_returns (shows.note middle.hasLock (narrowed code))
        (by simp [Shadowed])).mono fun _ shown => ?_
      refine shown.congr (fun reg member => ?_) rfl rfl rfl rfl
      refine (valueAfter_calibrated code fourBits reg member).symm.trans ?_
      rw [← isInit]
      rfl

/-- Every value of `r82xx_sysfreq_sel` is set in the settings already. -/
theorem sysfreqSel_returns
    (shows : Shows report settings before)
    {calibrated : Option Byte}
    (isInit : settings.registers = initRegisters calibrated)
    (fourBits : ∀ code ∈ calibrated, code &&& 0x0f = code) :
    Returns (sysfreqSel 0 .digitalTv .dvbt).run before (.ok ())
      (Shows report { settings with input := 0 }) := by
  have idle :
      ∀ reg ∈ settingRegisters,
        valueAfter
            [⟨0x05, 0x00, 0x60⟩, ⟨0x06, 0x00, 0x08⟩, ⟨0x11, 0x38, 0x38⟩,
              ⟨0x17, 0xa0, 0x30⟩, ⟨0x0a, 0x40, 0x60⟩]
            reg (settings.registers reg) =
          settings.registers reg := by
    rw [isInit]
    cases calibrated with
    | none =>
        exact forall_settingRegisters rfl rfl rfl rfl rfl
    | some code =>
        exact valueAfter_sysfreq code (fourBits code rfl)
  unfold sysfreqSel
  refine (writeMasks_apart shows (by simp [Shadowed])
    (by simp [settingRegisters])).runBind fun _ shows => ?_
  refine (writeReg_apart shows (by decide) (by decide)).runBind
    fun _ shows => ?_
  refine (writeReg_apart shows (by decide) (by decide)).runBind
    fun middle shows => ?_
  refine Returns.runBind (Returns.runModify rfl) fun _ same => ?_
  have selected :
      Shows report { settings with input := 0 }
        { middle with input := 0 } :=
    { shows with
      toWired := shows.toWired.of_environment rfl
      input := rfl }
  subst same
  refine (writeMasks_idle selected (by simp [Shadowed]) idle).runBind
    fun _ shows => ?_
  rw [if_pos (by decide)]
  exact writeMasks_apart shows (by simp [Shadowed])
    (by simp [settingRegisters])

theorem setTvStandard_returns
    (shows : Shows report settings before)
    (isArray : settings.registers = arrayRegisters) :
    Returns (setTvStandard .digitalTv).run before (.ok ())
      (Shows report
        { settings with
          registers := initRegisters (report.calibration settings.place).1
          intFreq := 3570000
          place := (report.calibration settings.place).2 }) := by
  unfold setTvStandard
  refine Returns.runBind (Returns.runModify rfl) fun _ same => ?_
  subst same
  refine (writeMasks_returns (shows.shadowStore isArray)
    (by simp [Shadowed])).runBind fun started shown => ?_
  have shows :
      Shows report { settings with registers := initRegisters none }
        started := by
    refine shown.congr ?_ rfl rfl rfl rfl
    unfold Settings.masked
    rw [isArray]
    exact forall_settingRegisters rfl rfl rfl rfl rfl
  rw [if_pos (by decide)]
  refine (writeMasks_apart shows (by simp [Shadowed])
    (by simp [settingRegisters])).runBind fun middle shows => ?_
  refine Returns.runBind (Returns.runModify rfl) fun _ same => ?_
  subst same
  have retuned :
      Shows report
        { settings with
          registers := initRegisters none
          intFreq := 3570000 }
        { middle with intFreq := 3570000 } :=
    { shows with
      toWired := shows.toWired.of_environment rfl
      intFreq := rfl }
  exact finishTvStandard_returns retuned rfl

/-- What `r82xx_init` leaves, whatever the registers were. -/
theorem init_returns
    (wired : Wired report before) :
    Returns init.run before (.ok ())
      (Shows report (initSettings report before.bus.reads)) := by
  have wired :
      Wired report { before with xtalCapSel := .highCap0p } :=
    wired.of_environment rfl
  unfold init
  refine Returns.runBind (Returns.runModify rfl) fun _ same => ?_
  subst same
  refine (write_initArray_returns wired).runOutcome.runBind
    fun _ shows => ?_
  refine (setTvStandard_returns shows rfl).runBind fun _ shows => ?_
  refine (sysfreqSel_returns shows rfl
    (fun _ isCode => calibration_four_bits isCode)).runOutcome.runBind
      fun middle shows => ?_
  refine Returns.runBind (Returns.runModify rfl) fun _ same => ?_
  subst same
  refine Returns.runPure ?_
  exact
    { shows with
      toWired := shows.toWired.of_environment rfl
      initDone := rfl }

end LibRtlSdr.R82xx
