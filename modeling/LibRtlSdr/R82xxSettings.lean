import LibRtlSdr.R82xxFrames

namespace LibRtlSdr.R82xx

open DriverProgram MaskedWrites OverlayWrites

/-!
# The settings of an R820T

The gain and filter registers of a tuner and its intermediate frequency, as long
as every transfer succeeds.  On them the functions of the driver are functions
of the settings and of what the chip reports: whether its PLL has locked, and to
what its filter calibrates.
-/

/-- The registers of the gain, 0x05, 0x07 and 0x0c, and of the filter, 0x0a and 0x0b. -/
def settingRegisters : List Nat :=
  [0x05, 0x07, 0x0c, 0x0a, 0x0b]

/-- What the chip reports at a place in the script of its reads. -/
def Bus.reported (bus : Bus) (place : Nat) : Nat → Byte :=
  fun index => bitrev ((bus.readAnswers place).2 index)

/-- What does not change about a tuner: the stick it is on and what its chip reports. -/
structure Report where
  blogV4 : Bool
  reported : Nat → Nat → Byte

namespace Report

variable (report : Report)

/-- Does the PLL lock, if `waitForLock` begins at this place? -/
def locks (place : Nat) : Bool :=
  pllLocked (report.reported place) || pllLocked (report.reported (place + 1))

/-- The place after `waitForLock`. -/
def afterLock (place : Nat) : Nat :=
  if pllLocked (report.reported place) then place + 1 else place + 2

end Report

/-- The settings of a tuner, with the place reached in the script of its reads. -/
structure Settings where
  registers : Nat → Byte
  intFreq : UInt32
  input : Byte
  initDone : Bool
  place : Nat

namespace Settings

/-- The settings when the script has moved on. -/
def atPlace (settings : Settings) (place : Nat) : Settings :=
  { settings with place := place }

@[simp] theorem atPlace_place
    (settings : Settings)
    (place : Nat) :
    (settings.atPlace place).place = place :=
  rfl

/-- A register is written as a whole. -/
def written (settings : Settings) (reg : Nat) (val : Byte) : Settings :=
  { settings with
    registers := Function.update settings.registers reg val }

/-- Masked writes. -/
def masked
    (settings : Settings)
    (writes : List (MaskedWrite Nat 8)) :
    Settings :=
  { settings with
    registers := fun reg => valueAfter writes reg (settings.registers reg) }

end Settings

/-- A tuner for a clock of 28.8 MHz on which every transfer succeeds. -/
structure Wired (report : Report) (priv : Priv) : Prop where
  done : priv.AllDone
  xtal : priv.xtal = 28800000
  rafaelChip : priv.rafaelChip = .r820t
  blogV4 : priv.blogV4 = report.blogV4
  reported : priv.bus.reported = report.reported

/-- The tuner has the settings, in its shadow registers and on the chip. -/
structure Shows
    (report : Report)
    (settings : Settings)
    (priv : Priv) : Prop
    extends Wired report priv where
  shadow :
    ∀ reg ∈ settingRegisters, priv.regs reg = settings.registers reg
  registers :
    ∀ reg ∈ settingRegisters, priv.bus.chip reg = settings.registers reg
  intFreq : priv.intFreq = settings.intFreq
  input : priv.input = settings.input
  initDone : priv.initDone = settings.initDone
  place : priv.bus.reads = settings.place

/-- What does not change about a tuner. -/
def Priv.report (priv : Priv) : Report where
  blogV4 := priv.blogV4
  reported := priv.bus.reported

/-- The settings of a tuner, as they are on the chip. -/
def Priv.settings (priv : Priv) : Settings where
  registers := priv.bus.chip
  intFreq := priv.intFreq
  input := priv.input
  initDone := priv.initDone
  place := priv.bus.reads

variable {report : Report} {settings : Settings} {before : Priv}

/-- A tuner that shows any settings shows its own. -/
theorem Shows.own
    (shows : Shows report settings before) :
    Shows before.report before.settings before where
  toWired := { shows.toWired with blogV4 := rfl, reported := rfl }
  shadow reg member :=
    (shows.shadow reg member).trans (shows.registers reg member).symm
  registers _ _ := rfl
  intFreq := rfl
  input := rfl
  initDone := rfl
  place := rfl

/-- The clock, the chip and the script are part of the environment. -/
theorem Wired.of_environment
    {after : Priv}
    (wired : Wired report before)
    (same : after.environment = before.environment) :
    Wired report after := by
  have sameAnswers :
      after.environment.bus.readAnswers =
        before.environment.bus.readAnswers :=
    congrArg (fun priv : Priv => priv.bus.readAnswers) same
  simp only [Priv.environment_readAnswers] at sameAnswers
  refine ⟨wired.done.of_environment same,
    (congrArg Priv.xtal same).trans wired.xtal,
    (congrArg Priv.rafaelChip same).trans wired.rafaelChip,
    (congrArg Priv.blogV4 same).trans wired.blogV4, ?_⟩
  rw [← wired.reported]
  unfold Bus.reported
  rw [sameAnswers]

namespace Shows

/-- Registers that are not among the settings do not matter. -/
theorem congr
    {same : Settings}
    (shows : Shows report settings before)
    (registers :
      ∀ reg ∈ settingRegisters,
        same.registers reg = settings.registers reg)
    (intFreq : same.intFreq = settings.intFreq)
    (input : same.input = settings.input)
    (initDone : same.initDone = settings.initDone)
    (place : same.place = settings.place) :
    Shows report same before where
  toWired := shows.toWired
  shadow reg member :=
    (shows.shadow reg member).trans (registers reg member).symm
  registers reg member :=
    (shows.registers reg member).trans (registers reg member).symm
  intFreq := shows.intFreq.trans intFreq.symm
  input := shows.input.trans input.symm
  initDone := shows.initDone.trans initDone.symm
  place := shows.place.trans place.symm

end Shows

/-- A byte that is written appears on the chip. -/
theorem chip_written
    (priv : Priv)
    (reg other : Nat)
    (val : Byte) :
    (priv.written reg [val]).bus.chip other =
      Function.update priv.bus.chip reg val other := by
  unfold Priv.written
  dsimp only
  by_cases same : other = reg
  · subst same
    rw [Function.update_self]
    exact overlay_of_some (by simp [patch])
  · rw [Function.update_of_ne same]
    apply overlay_of_none
    unfold patch
    by_cases after : reg ≤ other
    · rw [if_pos after]
      exact List.getElem?_eq_none (by simp; omega)
    · exact if_neg after

/-- It appears in the shadow registers as well. -/
theorem regs_written
    (priv : Priv)
    {reg : Nat}
    (shadowed : Shadowed reg)
    (other : Nat)
    (val : Byte) :
    (priv.written reg [val]).regs other =
      Function.update priv.regs reg val other := by
  unfold Priv.written shadowStore
  dsimp only
  by_cases same : other = reg
  · subst same
    rw [Function.update_self]
    exact overlay_of_some (by simp [patch, shadowed])
  · rw [Function.update_of_ne same]
    apply overlay_of_none
    unfold patch
    by_cases after : reg ≤ other
    · rw [if_pos after, List.getElem?_eq_none (by simp; omega), ite_self]
    · rw [if_neg after, ite_self]

theorem Shows.written
    (shows : Shows report settings before)
    {reg : Nat}
    (shadowed : Shadowed reg)
    (val : Byte) :
    Shows report (settings.written reg val)
      (before.written reg [val]) := by
  refine
    { toWired := shows.toWired.of_environment rfl
      shadow := fun other member => ?_
      registers := fun other member => ?_
      intFreq := shows.intFreq
      input := shows.input
      initDone := shows.initDone
      place := shows.place }
  · rw [regs_written before shadowed]
    simp only [Settings.written, Function.update_apply]
    rw [shows.shadow other member]
  · rw [chip_written before]
    simp only [Settings.written, Function.update_apply]
    rw [shows.registers other member]

theorem Shows.masked
    (shows : Shows report settings before)
    {writes : List (MaskedWrite Nat 8)}
    (shadowed : ∀ write ∈ writes, Shadowed write.reg) :
    Shows report (settings.masked writes) (before.masked writes) := by
  induction writes generalizing settings before with
  | nil =>
      exact shows
  | cons first rest inductionHypothesis =>
      have firstShown :
          Shows report
            (settings.written first.reg
              (merge (before.regs first.reg) first.val first.mask))
            (before.written first.reg
              [merge (before.regs first.reg) first.val first.mask]) :=
        shows.written (shadowed first List.mem_cons_self) _
      have firstMasked :
          Shows report (settings.masked [first])
            (before.written first.reg
              [merge (before.regs first.reg) first.val first.mask]) := by
        refine firstShown.congr ?_ rfl rfl rfl rfl
        intro reg member
        unfold Settings.masked Settings.written valueAfter
        simp only [List.foldl_cons, List.foldl_nil]
        by_cases same : first.reg = reg
        · rw [if_pos same, same, Function.update_self,
            shows.shadow reg member]
        · rw [if_neg same, Function.update_of_ne (Ne.symm same)]
      exact inductionHypothesis firstMasked
        (fun write member => shadowed write (List.mem_cons_of_mem _ member))

/-- What the driver notes of the PLL and of the calibration are not settings. -/
theorem Shows.note
    (shows : Shows report settings before)
    (hasLock : Bool)
    (filCalCode : Byte) :
    Shows report settings
      { before with hasLock := hasLock, filCalCode := filCalCode } :=
  { shows with toWired := shows.toWired.of_environment rfl }

section Accesses

theorem writeMasks_returns
    (shows : Shows report settings before)
    {writes : List (MaskedWrite Nat 8)}
    (shadowed : ∀ write ∈ writes, Shadowed write.reg) :
    Returns (writeMasks writes).run before (.ok ())
      (Shows report (settings.masked writes)) :=
  ⟨before.masked writes,
    (yields_writeMasks shows.done shadowed).mpr ⟨rfl, rfl⟩,
    shows.masked shadowed⟩

/-- Masked writes that write back what the registers hold do not matter. -/
theorem writeMasks_idle
    (shows : Shows report settings before)
    {writes : List (MaskedWrite Nat 8)}
    (shadowed : ∀ write ∈ writes, Shadowed write.reg)
    (idle :
      ∀ reg ∈ settingRegisters,
        valueAfter writes reg (settings.registers reg) =
          settings.registers reg) :
    Returns (writeMasks writes).run before (.ok ())
      (Shows report settings) :=
  (writeMasks_returns shows shadowed).mono fun _ shown =>
    shown.congr (fun reg member => (idle reg member).symm) rfl rfl rfl rfl

/-- Masked writes to other registers do not matter. -/
theorem writeMasks_apart
    (shows : Shows report settings before)
    {writes : List (MaskedWrite Nat 8)}
    (shadowed : ∀ write ∈ writes, Shadowed write.reg)
    (apart : ∀ write ∈ writes, write.reg ∉ settingRegisters) :
    Returns (writeMasks writes).run before (.ok ())
      (Shows report settings) := by
  refine writeMasks_idle shows shadowed fun reg member => ?_
  refine valueAfter_of_untouched ?_ _
  rintro write inWrites rfl
  exact apart write inWrites member

theorem writeReg_returns
    (shows : Shows report settings before)
    {reg : Nat}
    {val : Byte}
    (shadowed : Shadowed reg) :
    Returns (writeReg reg val).run before (.ok ())
      (Shows report (settings.written reg val)) :=
  ⟨before.written reg [val],
    (yields_writeReg shows.done).mpr ⟨rfl, rfl⟩, shows.written shadowed val⟩

/-- A write to another register does not matter. -/
theorem writeReg_apart
    (shows : Shows report settings before)
    {reg : Nat}
    {val : Byte}
    (shadowed : Shadowed reg)
    (apart : reg ∉ settingRegisters) :
    Returns (writeReg reg val).run before (.ok ())
      (Shows report settings) := by
  refine (writeReg_returns shows shadowed).mono
    fun after shown => shown.congr ?_ rfl rfl rfl rfl
  intro other member
  refine (Function.update_of_ne ?_ _ _).symm
  rintro rfl
  exact apart member

theorem read_returns
    (shows : Shows report settings before) :
    Returns (read 0x00).run before (.ok (report.reported settings.place))
      (Shows report (settings.atPlace (settings.place + 1))) := by
  have value :
      (fun index =>
        bitrev ((before.bus.readAnswers before.bus.reads).2 index)) =
        report.reported settings.place := by
    rw [← shows.reported, ← shows.place]
    rfl
  refine ⟨(before.sent 0x00 []).received,
    (yields_read shows.done).mpr ⟨by rw [value], rfl⟩, ?_⟩
  refine
    { toWired := shows.toWired.of_environment rfl
      shadow := shows.shadow
      registers := fun reg member => ?_
      intFreq := shows.intFreq
      input := shows.input
      initDone := shows.initDone
      place := congrArg (fun place => place + 1) shows.place }
  have untouched : patch 0x00 [] reg = none := by
    simp [patch]
  exact (overlay_of_none untouched).trans (shows.registers reg member)

end Accesses

section Tuning

/-- The PLL accepts a frequency. -/
def PllAccepts (freq : UInt32) : Prop :=
  (pllNint freq 28800000).toNat ≤ nintLimit .r820t

instance (freq : UInt32) : Decidable (PllAccepts freq) :=
  inferInstanceAs (Decidable (_ ≤ _))

theorem setMux_returns
    (shows : Shows report settings before)
    (freq : UInt32) :
    Returns (setMux freq).run before (.ok ()) (Shows report settings) := by
  unfold setMux
  refine (writeMasks_apart shows (by simp [Shadowed])
    (by simp [settingRegisters])).runBind fun _ shows => ?_
  refine (writeReg_apart shows (by decide) (by decide)).runBind
    fun _ shows => ?_
  refine Returns.runGetBind ?_
  exact writeMasks_apart shows (by simp [Shadowed])
    (by simp [settingRegisters])

/-- The SDM calculator ends before it would divide by zero. -/
theorem sdmLoop_returns
    (shifts : Nat)
    (fra : UInt32)
    (sdm : UInt16) :
    ∃ result,
      Returns (sdmLoop 28800 (shifts + 1) fra sdm).run before (.ok result)
        (fun after => after = before) := by
  induction shifts generalizing fra sdm with
  | zero =>
      unfold sdmLoop
      dsimp only
      split
      · rename_i more
        have last : 2 * 28800 / ((0x8000 : UInt32) >>> UInt32.ofNat 0) < fra :=
          more
        rw [if_pos last, if_pos rfl]
        exact ⟨_, Returns.runPure rfl⟩
      · exact ⟨_, Returns.runPure rfl⟩
  | succ shifts inductionHypothesis =>
      unfold sdmLoop
      dsimp only
      split
      · split
        · rw [if_neg (Nat.succ_ne_zero shifts)]
          exact inductionHypothesis _ _
        · exact inductionHypothesis _ _
      · exact ⟨_, Returns.runPure rfl⟩

theorem waitForLock_returns
    (shows : Shows report settings before) :
    Returns waitForLock.run before (.ok (report.locks settings.place))
      (Shows report
        (settings.atPlace (report.afterLock settings.place))) := by
  unfold waitForLock Report.locks Report.afterLock
  refine (read_returns shows).runBind fun _ shows => ?_
  split
  · rename_i locked
    rw [locked, Bool.true_or]
    exact Returns.runPure shows
  · rename_i notLocked
    rw [Bool.eq_false_iff.mpr notLocked, Bool.false_or]
    refine (writeMasks_apart shows (by simp [Shadowed])
      (by simp [settingRegisters])).runBind fun _ shows => ?_
    exact (read_returns shows).runBind fun _ shows => Returns.runPure shows

theorem setPll_returns
    (shows : Shows report settings before)
    {freq : UInt32}
    (accepts : PllAccepts freq) :
    Returns (setPll freq).run before (.ok ())
      (fun after =>
        after.hasLock = report.locks (settings.place + 1) ∧
          Shows report
            (settings.atPlace (report.afterLock (settings.place + 1)))
            after) := by
  unfold setPll
  refine Returns.runGetBind ?_
  rw [shows.xtal, shows.rafaelChip]
  refine (writeMasks_apart shows (by simp [Shadowed])
    (by simp [settingRegisters])).runBind fun _ shows => ?_
  refine (read_returns shows).runBind fun _ shows => ?_
  refine (writeMasks_apart shows (by simp [Shadowed])
    (by simp [settingRegisters])).runBind fun _ shows => ?_
  rw [if_neg (by decide), if_neg (Nat.not_lt.mpr accepts)]
  refine (writeReg_apart shows (by decide) (by decide)).runBind
    fun _ shows => ?_
  refine (writeMasks_apart shows (by simp [Shadowed])
    (by simp [settingRegisters])).runBind fun middle shows => ?_
  rcases sdmLoop_returns 14 (vcoFra freq 28800000) 0 with ⟨sdm, returns⟩
  refine Returns.runBind returns fun _ same => ?_
  subst same
  refine (writeReg_apart shows (by decide) (by decide)).runBind
    fun _ shows => ?_
  refine (writeReg_apart shows (by decide) (by decide)).runBind
    fun _ shows => ?_
  refine (waitForLock_returns shows).runBind fun last shows => ?_
  split
  · rename_i locks
    have locked : report.locks (settings.place + 1) = true := locks
    have noted := shows.note true last.filCalCode
    refine Returns.runBind (Returns.runModify rfl) fun _ same => ?_
    subst same
    have returns :
        Returns (writeMasks [⟨0x1a, 0x08, 0x08⟩]).run
          { last with hasLock := true } (.ok ())
          (Shows report
            (settings.atPlace (report.afterLock (settings.place + 1)))) :=
      writeMasks_apart noted (by simp [Shadowed])
        (by simp [settingRegisters])
    rcases returns with ⟨after, yields, shown⟩
    refine ⟨after, yields, ?_, shown⟩
    rw [locked,
      ← ((yields_writeMasks noted.done (by simp [Shadowed])).mp yields).2]
    rfl
  · rename_i fails
    have notLocked : report.locks (settings.place + 1) = false :=
      Bool.eq_false_iff.mpr fails
    refine Returns.runModify ⟨?_, shows.note false last.filCalCode⟩
    rw [notLocked]

/-- A frequency that the PLL does not accept is refused after one look at the chip. -/
theorem setPll_refuses
    (shows : Shows report settings before)
    {freq : UInt32}
    (refused : ¬ PllAccepts freq) :
    Returns (setPll freq).run before (.error (-1))
      (Shows report (settings.atPlace (settings.place + 1))) := by
  unfold setPll
  refine Returns.runGetBind ?_
  rw [shows.xtal, shows.rafaelChip]
  refine (writeMasks_apart shows (by simp [Shadowed])
    (by simp [settingRegisters])).runBind fun _ shows => ?_
  refine (read_returns shows).runBind fun _ shows => ?_
  refine (writeMasks_apart shows (by simp [Shadowed])
    (by simp [settingRegisters])).runBind fun _ shows => ?_
  rw [if_neg (by decide), if_pos (Nat.not_le.mp refused)]
  exact Returns.runThrow shows

namespace Settings

/-- The settings when the Blog V4 has switched to the input for a frequency. -/
def inputSelected
    (settings : Settings)
    (blogV4 : Bool)
    (freq : UInt32) :
    Settings :=
  if blogV4 = true ∧ blogV4Band freq ≠ settings.input then
    { settings.masked (blogV4Inputs (blogV4Band freq)) with
      input := blogV4Band freq }
  else
    settings

/-- The settings when the tuner is tuned to a frequency that its PLL accepts. -/
def tunedTo
    (settings : Settings)
    (report : Report)
    (freq : UInt32) :
    Settings :=
  let looked := settings.atPlace (report.afterLock (settings.place + 1))
  if report.locks (settings.place + 1) then
    looked.inputSelected report.blogV4 freq
  else
    looked

theorem tunedTo_intFreq
    (settings : Settings)
    (report : Report)
    (freq : UInt32) :
    (settings.tunedTo report freq).intFreq = settings.intFreq := by
  unfold tunedTo inputSelected
  dsimp only
  split
  · split <;>
      rfl
  · rfl

theorem tunedTo_place
    (settings : Settings)
    (report : Report)
    (freq : UInt32) :
    (settings.tunedTo report freq).place =
      report.afterLock (settings.place + 1) := by
  unfold tunedTo inputSelected
  dsimp only
  split
  · split <;>
      rfl
  · rfl

/-- Does the stick switch to the input for a frequency when it is tuned to it? -/
def switches (settings : Settings) (report : Report) (freq : UInt32) : Bool :=
  report.locks (settings.place + 1) && report.blogV4 &&
    (blogV4Band freq != settings.input)

/-- Tuning changes the registers by the switch of the input alone. -/
theorem tunedTo_registers
    (settings : Settings)
    (report : Report)
    (freq : UInt32)
    (reg : Nat) :
    (settings.tunedTo report freq).registers reg =
      if settings.switches report freq then
        valueAfter (blogV4Inputs (blogV4Band freq)) reg
          (settings.registers reg)
      else
        settings.registers reg := by
  unfold tunedTo inputSelected switches
  dsimp only
  by_cases locked : report.locks (settings.place + 1) = true
  · rw [if_pos locked, locked, Bool.true_and]
    by_cases changes :
        report.blogV4 = true ∧ blogV4Band freq ≠ settings.input
    · have changing :
          (report.blogV4 && blogV4Band freq != settings.input) = true := by
        simpa using changes
      rw [if_pos changing]
      exact congrFun (congrArg registers (if_pos changes)) reg
    · have same :
          ¬ (report.blogV4 && blogV4Band freq != settings.input) = true := by
        simpa using changes
      rw [if_neg same]
      exact congrFun (congrArg registers (if_neg changes)) reg
  · rw [if_neg locked, if_neg (by simp [locked])]
    rfl

/-- The PLL accepts the `lo_freq` for a frequency. -/
def Accept (settings : Settings) (report : Report) (freq : UInt32) : Prop :=
  PllAccepts (upconvertFreq report.blogV4 freq + settings.intFreq)

instance (settings : Settings) (report : Report) (freq : UInt32) :
    Decidable (settings.Accept report freq) :=
  inferInstanceAs (Decidable (PllAccepts _))

/-- The answer of `r82xx_set_freq`, and the settings after it. -/
def retuned
    (settings : Settings)
    (report : Report)
    (freq : UInt32) :
    Int32 × Settings :=
  if settings.Accept report freq then
    (0, settings.tunedTo report freq)
  else
    (-1, settings.atPlace (settings.place + 1))

end Settings

theorem selectInput_returns
    (shows : Shows report settings before)
    (freq : UInt32) :
    Returns (selectInput freq).run before (.ok ())
      (Shows report (settings.inputSelected report.blogV4 freq)) := by
  unfold selectInput Settings.inputSelected
  refine Returns.runGetBind ?_
  rw [shows.blogV4, shows.input]
  cases report.blogV4 with
  | true =>
      rw [if_pos rfl]
      refine (writeMasks_apart shows (by simp [Shadowed])
        (by simp [settingRegisters])).runBind fun middle shows => ?_
      by_cases changes : blogV4Band freq ≠ settings.input
      · rw [if_pos changes, if_pos ⟨rfl, changes⟩]
        have selected :
            Shows report { settings with input := blogV4Band freq }
              { middle with input := blogV4Band freq } :=
          { shows with
            toWired := shows.toWired.of_environment rfl
            input := rfl }
        refine Returns.runBind (Returns.runModify rfl) fun _ same => ?_
        subst same
        exact writeMasks_returns selected (by simp [blogV4Inputs, Shadowed])
      · rw [if_neg changes, if_neg (fun both => changes both.2)]
        exact Returns.runPure shows
  | false =>
      have isR820t :
          ¬ (before.rafaelChip = .r828d ∧ airCable1In freq ≠ settings.input) := by
        rw [shows.rafaelChip]
        rintro ⟨absurdity, _⟩
        cases absurdity
      rw [if_neg (by decide), if_neg isR820t, if_neg (by simp)]
      exact Returns.runPure shows

theorem setFreq_returns
    (shows : Shows report settings before)
    (freq : UInt32) :
    Returns (setFreq freq).result before (settings.retuned report freq).1
      (Shows report (settings.retuned report freq).2) := by
  have muxed :
      Returns
        (setMux (upconvertFreq before.blogV4 freq + before.intFreq)).run
        before (.ok ()) (Shows report settings) :=
    setMux_returns shows _
  rw [shows.blogV4, shows.intFreq] at muxed
  unfold Settings.retuned
  split
  · rename_i accepts
    refine Returns.result ?_
    unfold setFreq
    refine Returns.runGetBind ?_
    rw [shows.blogV4, shows.intFreq]
    refine muxed.runBind fun _ shows => ?_
    refine (setPll_returns shows accepts).runBind fun last looked => ?_
    rcases looked with ⟨locked, shows⟩
    refine Returns.runGetBind ?_
    dsimp only
    unfold Settings.tunedTo
    rw [locked]
    split
    · exact selectInput_returns shows freq
    · exact Returns.runPure shows
  · rename_i refused
    refine Returns.resultError ?_
    unfold setFreq
    refine Returns.runGetBind ?_
    rw [shows.blogV4, shows.intFreq]
    refine muxed.runBind fun _ shows => ?_
    exact (setPll_refuses shows refused).runBindError

end Tuning

section Functions

theorem writeRegs_returns
    (shows : Shows report settings before)
    {writes : List (Nat × Byte)}
    (shadowed : ∀ write ∈ writes, Shadowed write.1) :
    Returns (writeRegs writes).run before (.ok ())
      (Shows report
        (writes.foldl
          (fun settings write => settings.written write.1 write.2)
          settings)) := by
  induction writes generalizing settings before with
  | nil =>
      exact Returns.runPure shows
  | cons first rest inductionHypothesis =>
      unfold writeRegs
      refine (writeReg_returns shows
        (shadowed first List.mem_cons_self)).runBind fun _ shows => ?_
      exact inductionHypothesis shows
        (fun write member => shadowed write (List.mem_cons_of_mem _ member))

/-- The settings of a tuner in standby. -/
def Settings.standby (settings : Settings) : Settings :=
  standbyWrites.foldl
    (fun settings write => settings.written write.1 write.2)
    settings

theorem standby_returns
    (shows : Shows report settings before)
    (initDone : settings.initDone = true) :
    Returns standby.run before (.ok ())
      (Shows report settings.standby) := by
  unfold standby
  refine Returns.runGetBind ?_
  rw [shows.initDone, if_pos initDone]
  exact writeRegs_returns shows (by decide)

/-- Bits 5 and 6 of the VGA register are set, which they are except in standby. -/
def Settings.Awake (settings : Settings) : Prop :=
  settings.registers 0x0c &&& 0x60 = 0x60

theorem Settings.standby_not_awake
    (settings : Settings) :
    ¬ settings.standby.Awake := by
  have vga : settings.standby.registers 0x0c = 0x35 := by
    simp [Settings.standby, standbyWrites, Settings.written]
  unfold Settings.Awake
  rw [vga]
  decide

/-- Masked writes that leave these two bits alone do not change that. -/
theorem Settings.Awake.masked
    (awake : settings.Awake)
    {writes : List (MaskedWrite Nat 8)}
    (disjoint :
      ∀ write ∈ writes, write.reg = 0x0c → write.mask &&& 0x60 = 0) :
    (settings.masked writes).Awake :=
  (valueAfter_and_of_disjoint disjoint _).trans awake

/-- A tuned tuner is as awake as before. -/
theorem Settings.Awake.tunedTo
    (awake : settings.Awake)
    (report : Report)
    (freq : UInt32) :
    (settings.tunedTo report freq).Awake := by
  unfold Settings.tunedTo Settings.inputSelected
  dsimp only
  split
  · split
    · exact awake.masked (by simp [blogV4Inputs])
    · exact awake
  · exact awake

theorem Settings.tunedTo_initDone
    (settings : Settings)
    (report : Report)
    (freq : UInt32) :
    (settings.tunedTo report freq).initDone = settings.initDone := by
  unfold Settings.tunedTo Settings.inputSelected
  dsimp only
  split
  · split <;>
      rfl
  · rfl

theorem Settings.retuned_initDone
    (settings : Settings)
    (report : Report)
    (freq : UInt32) :
    (settings.retuned report freq).2.initDone = settings.initDone := by
  unfold Settings.retuned
  split
  · exact settings.tunedTo_initDone report freq
  · rfl

theorem Settings.Awake.retuned
    (awake : settings.Awake)
    (report : Report)
    (freq : UInt32) :
    (settings.retuned report freq).2.Awake := by
  unfold Settings.retuned
  split
  · exact awake.tunedTo report freq
  · exact awake

/-- Setting a gain does not wake the tuner, and does not send it to sleep. -/
theorem setGain_returns
    (shows : Shows report settings before)
    (setManualGain : Bool)
    (gain : Int) :
    ∃ gained : Settings,
      gained.initDone = settings.initDone ∧
        (settings.Awake → gained.Awake) ∧
        Returns (setGain setManualGain gain).run before (.ok ())
          (Shows report gained) := by
  unfold setGain
  cases setManualGain with
  | true =>
      refine ⟨_, ?_, ?_, (writeMasks_returns shows (by simp [Shadowed])).runBind
        fun _ shows => (read_returns shows).runBind
          fun _ shows => writeMasks_returns shows (by simp [Shadowed])⟩
      · rfl
      · intro awake
        exact (awake.masked (by simp)).masked (by simp)
  | false =>
      refine ⟨_, ?_, ?_, writeMasks_returns shows (by simp [Shadowed])⟩
      · rfl
      · intro awake
        exact awake.masked (by simp)

/-- The settings with those of a bandwidth. -/
def Settings.withBandwidth (settings : Settings) (bw : Int) : Settings :=
  Settings.masked
    { settings with intFreq := (bandwidthSetting bw).intFreq }
    [⟨0x0a, (bandwidthSetting bw).reg0a, 0x10⟩,
      ⟨0x0b, (bandwidthSetting bw).reg0b, 0xef⟩]

theorem Settings.Awake.withBandwidth
    (awake : settings.Awake)
    (bw : Int) :
    (settings.withBandwidth bw).Awake := by
  have chosen :
      ({ settings with intFreq := (bandwidthSetting bw).intFreq } :
        Settings).Awake :=
    awake
  exact chosen.masked (by simp)

theorem setBandwidth_shows
    (shows : Shows report settings before)
    (bw : Int) :
    Returns (setBandwidth bw).run before
      (.ok (settings.withBandwidth bw).intFreq)
      (Shows report (settings.withBandwidth bw)) := by
  have chosen :
      Shows report
        { settings with intFreq := (bandwidthSetting bw).intFreq }
        { before with intFreq := (bandwidthSetting bw).intFreq } :=
    { shows with
      toWired := shows.toWired.of_environment rfl
      intFreq := rfl }
  unfold setBandwidth
  refine Returns.runBind (Returns.runModify rfl) fun _ same => ?_
  subst same
  refine (writeMasks_returns chosen (by simp [Shadowed])).runBind
    fun _ shows => Returns.runGetBind ?_
  rw [shows.intFreq]
  exact Returns.runPure shows

end Functions

end LibRtlSdr.R82xx
