import LibRtlSdr.R82xxTuner

namespace LibRtlSdr.R82xx

open DriverProgram MaskedWrites

/-!
# What the functions of the tuner leave alone

Every function of the tuner writes a few registers and leaves all others alone,
whatever the chip answers and whichever transfer fails.
-/

/-- The registers that `r82xx_set_mux` writes. -/
def muxRegisters : List Nat :=
  [0x17, 0x1a, 0x1b, 0x10, 0x08, 0x09]

/-- The registers that `r82xx_set_pll` writes. -/
def pllRegisters : List Nat :=
  [0x10, 0x1a, 0x12, 0x14, 0x16, 0x15]

/-- The registers that `r82xx_set_freq` writes. -/
def freqRegisters : List Nat :=
  [0x17, 0x1a, 0x1b, 0x10, 0x08, 0x09, 0x12, 0x14, 0x16, 0x15, 0x05, 0x06]

theorem setMux_within
    (freq : UInt32) :
    Within muxRegisters (setMux freq) := by
  refine (writeMasks_within ?_).runBind fun _ =>
    (writeReg_within (by decide)).runBind fun _ =>
      Confined.runGet.runBind fun _ => writeMasks_within ?_
  · simp [muxRegisters]
  · simp [muxRegisters]

theorem sdmLoop_within
    {footprint : List Nat}
    (pllRefKhz : UInt32)
    (shifts : Nat)
    (fra : UInt32)
    (sdm : UInt16) :
    Within footprint (sdmLoop pllRefKhz shifts fra sdm) := by
  induction shifts generalizing fra sdm with
  | zero =>
      unfold sdmLoop
      split
      · exact Confined.runDivisionByZero
      · exact Confined.runPure _
  | succ shifts inductionHypothesis =>
      unfold sdmLoop
      dsimp only
      split
      · split
        · split
          · exact Confined.runPure _
          · exact inductionHypothesis _ _
        · exact inductionHypothesis _ _
      · exact Confined.runPure _

theorem waitForLock_within :
    Within pllRegisters waitForLock := by
  refine read_within.runBind fun data => ?_
  split
  · exact Confined.runPure _
  · exact (writeMasks_within (by simp [pllRegisters])).runBind fun _ =>
      read_within.runBind fun _ => Confined.runPure _

/-- Noting whether the PLL has locked changes nothing else. -/
theorem Priv.outside_hasLock
    (footprint : List Nat)
    (locked : Bool)
    (priv : Priv) :
    ({ priv with hasLock := locked } : Priv).outside footprint =
      priv.outside footprint :=
  rfl

theorem setPll_within
    (freq : UInt32) :
    Within pllRegisters (setPll freq) := by
  refine Confined.runGet.runBind fun priv =>
    (writeMasks_within (by simp [pllRegisters])).runBind fun _ =>
      read_within.runBind fun data =>
        (writeMasks_within (by simp [pllRegisters])).runBind fun _ => ?_
  split
  · exact Confined.runDivisionByZero
  split
  · exact Confined.runThrow _
  refine (writeReg_within (by decide)).runBind fun _ =>
    (writeMasks_within (by simp [pllRegisters])).runBind fun _ =>
      (sdmLoop_within _ _ _ _).runBind fun sdm =>
        (writeReg_within (by decide)).runBind fun _ =>
          (writeReg_within (by decide)).runBind fun _ =>
            waitForLock_within.runBind fun locked => ?_
  split
  · exact (Confined.runModify (Priv.outside_hasLock _ _)).runBind fun _ =>
      writeMasks_within (by simp [pllRegisters])
  · exact Confined.runModify (Priv.outside_hasLock _ _)

theorem setGain_within
    (setManualGain : Bool)
    (gain : Int) :
    Within [0x05, 0x07, 0x0c] (setGain setManualGain gain) := by
  unfold setGain
  split
  · exact (writeMasks_within (by simp)).runBind fun _ =>
      read_within.runBind fun _ => writeMasks_within (by simp)
  · exact writeMasks_within (by simp)

theorem standby_within :
    Within (standbyWrites.map Prod.fst) standby := by
  refine Confined.runGet.runBind fun priv => ?_
  split
  · exact writeRegs_within (fun write member => List.mem_map_of_mem member)
  · exact Confined.runPure _

/-- The tuner outside a footprint, with the selected input forgotten as well. -/
def Priv.besides (footprint : List Nat) (priv : Priv) : Priv :=
  { priv.outside footprint with input := 0 }

/-- A program within a footprint keeps what is besides it. -/
theorem Within.besides
    {Value : Type}
    {footprint : List Nat}
    {program : Checked Priv Value}
    (within : Within footprint program) :
    Confined (Priv.besides footprint) program.run :=
  within.comp (fun priv => { priv with input := 0 })

theorem Priv.besides_input
    (footprint : List Nat)
    (input : Byte)
    (priv : Priv) :
    ({ priv with input := input } : Priv).besides footprint =
      priv.besides footprint :=
  rfl

theorem selectInput_besides
    (freq : UInt32) :
    Confined (Priv.besides freqRegisters) (selectInput freq).run := by
  refine Confined.runGet.runBind fun priv => ?_
  split
  · refine (writeMasks_within (by simp [freqRegisters])).besides.runBind
      fun _ => ?_
    split
    · exact (Confined.runModify (Priv.besides_input _ _)).runBind fun _ =>
        (writeMasks_within (by simp [blogV4Inputs, freqRegisters])).besides
    · exact Confined.runPure _
  · split
    · exact (Confined.runModify (Priv.besides_input _ _)).runBind fun _ =>
        (writeMasks_within (by simp [freqRegisters])).besides
    · exact Confined.runPure _

theorem setFreq_besides
    (freq : UInt32) :
    Confined (Priv.besides freqRegisters) (setFreq freq).run := by
  refine Confined.runGet.runBind fun priv =>
    ((setMux_within _).mono (by decide)).besides.runBind fun _ =>
      ((setPll_within _).mono (by decide)).besides.runBind fun _ =>
        Confined.runGet.runBind fun priv => ?_
  split
  · exact selectInput_besides freq
  · exact Confined.runPure _

/-- What no function of the tuner changes: the clock, the chip and the script. -/
def Priv.environment (priv : Priv) : Priv :=
  { priv with
    regs := fun _ => 0
    xtalCapSel := .highCap0p
    intFreq := 0
    filCalCode := 0
    input := 0
    hasLock := false
    initDone := false
    bus :=
      { priv.bus with
        chip := fun _ => 0
        writes := 0
        reads := 0 } }

/-- The environment and the intermediate frequency. -/
def Priv.steady (priv : Priv) : Priv × UInt32 :=
  (priv.environment, priv.intFreq)

/-- A program within a footprint keeps the environment. -/
theorem Within.environment
    {Value : Type}
    {footprint : List Nat}
    {program : Checked Priv Value}
    (within : Within footprint program) :
    Confined Priv.environment program.run :=
  within.comp Priv.environment

/-- A program within a footprint keeps the intermediate frequency as well. -/
theorem Within.steady
    {Value : Type}
    {footprint : List Nat}
    {program : Checked Priv Value}
    (within : Within footprint program) :
    Confined Priv.steady program.run :=
  within.comp Priv.steady

/-- What keeps the intermediate frequency keeps the environment. -/
theorem environment_of_steady
    {Value : Type}
    {program : Checked Priv Value}
    (steady : Confined Priv.steady program.run) :
    Confined Priv.environment program.run :=
  steady.comp Prod.fst

theorem setFreq_steady
    (freq : UInt32) :
    Confined Priv.steady (setFreq freq).run :=
  (setFreq_besides freq).comp Priv.steady

theorem setBandwidth_environment
    (bw : Int) :
    Confined Priv.environment (setBandwidth bw).run := by
  have within :
      Within [0x0a, 0x0b]
        (writeMasks
          [⟨0x0a, (bandwidthSetting bw).reg0a, 0x10⟩,
            ⟨0x0b, (bandwidthSetting bw).reg0b, 0xef⟩]) :=
    writeMasks_within (by simp)
  refine (Confined.runModify (fun priv => ?_)).runBind fun _ =>
    within.environment.runBind fun _ =>
      Confined.runGet.runBind fun _ => Confined.runPure _
  rfl

theorem sysfreqSel_steady
    (freq : UInt32)
    (type : TunerUse)
    (delsys : DeliverySystem) :
    Confined Priv.steady (sysfreqSel freq type delsys).run := by
  have within :
      ∀ writes, Within (writes.map MaskedWrite.reg) (writeMasks writes) :=
    fun writes =>
      writeMasks_within (fun write member => List.mem_map_of_mem member)
  have whole : ∀ reg val, Within [reg] (writeReg reg val) :=
    fun reg val => writeReg_within List.mem_cons_self
  refine (within _).steady.runBind fun _ =>
    (whole _ _).steady.runBind fun _ =>
      (whole _ _).steady.runBind fun _ =>
        (Confined.runModify (fun priv => ?_)).runBind fun _ =>
          (within _).steady.runBind fun _ => ?_
  · rfl
  · split <;>
      exact (within _).steady

theorem calibrationRound_steady :
    Confined Priv.steady calibrationRound.run := by
  have within :
      ∀ writes, Within (writes.map MaskedWrite.reg) (writeMasks writes) :=
    fun writes =>
      writeMasks_within (fun write member => List.mem_map_of_mem member)
  have data : Within [] (read 0x00) := read_within
  refine (within _).steady.runBind fun _ =>
    (setPll_within _).steady.runBind fun _ =>
      Confined.runGet.runBind fun priv => ?_
  split
  · refine (within _).steady.runBind fun _ =>
      data.steady.runBind fun _ =>
        (Confined.runModify (fun priv => ?_)).runBind fun _ =>
          Confined.runPure _
    rfl
  · exact Confined.runPure _

theorem calibrate_steady :
    Confined Priv.steady calibrate.run := by
  refine calibrationRound_steady.runBind fun code => ?_
  split
  · exact Confined.runPure _
  · split
    · exact Confined.runPure _
    · refine calibrationRound_steady.runBind fun code => ?_
      split <;>
        exact Confined.runPure _

theorem finishTvStandard_steady :
    Confined Priv.steady finishTvStandard.run := by
  refine calibrate_steady.runBind fun calibrated => ?_
  split
  · refine (Confined.runModify (fun priv => ?_)).runBind fun _ =>
      Confined.runGet.runBind fun priv =>
        (Within.steady (writeMasks_within
          (fun write member =>
            List.mem_map.mpr ⟨write, member, rfl⟩)))
    split <;>
      rfl
  · exact Confined.runPure _

theorem setTvStandard_environment
    (type : TunerUse) :
    Confined Priv.environment (setTvStandard type).run := by
  have within :
      ∀ writes, Within (writes.map MaskedWrite.reg) (writeMasks writes) :=
    fun writes =>
      writeMasks_within (fun write member => List.mem_map_of_mem member)
  refine (Confined.runModify (fun priv => ?_)).runBind fun _ =>
    (within _).environment.runBind fun _ =>
      (within _).environment.runBind fun _ =>
        (Confined.runModify (fun priv => ?_)).runBind fun _ =>
          environment_of_steady finishTvStandard_steady
  · rfl
  · rfl

/-- What `r82xx_init` does once the TV standard is set. -/
theorem init_environment :
    Confined Priv.environment init.run := by
  have written : Within (List.range 64) (write 0x05 initArray) :=
    write_within (by decide)
  refine (Confined.runModify (fun priv => ?_)).runBind fun _ =>
    written.environment.runOutcome.runBind fun _ =>
      (setTvStandard_environment _).runBind fun _ =>
        (environment_of_steady
          (sysfreqSel_steady _ _ _)).runOutcome.runBind fun selected =>
          (Confined.runModify (fun priv => ?_)).runBind fun _ => ?_
  · rfl
  · rfl
  · split
    · exact Confined.runThrow _
    · exact Confined.runPure _

@[simp] theorem Priv.environment_writeAnswers
    (priv : Priv) :
    priv.environment.bus.writeAnswers = priv.bus.writeAnswers :=
  rfl

@[simp] theorem Priv.environment_readAnswers
    (priv : Priv) :
    priv.environment.bus.readAnswers = priv.bus.readAnswers :=
  rfl

/-- The script of answers is part of the environment. -/
theorem Priv.AllDone.of_environment
    {before after : Priv}
    (done : before.AllDone)
    (same : after.environment = before.environment) :
    after.AllDone := by
  constructor
  · intro place
    rw [← Priv.environment_writeAnswers, same]
    exact done.writes place
  · intro place
    rw [← Priv.environment_readAnswers, same]
    exact done.reads place

section Success

variable {before after : Priv}

theorem Priv.AllDone.written
    (done : before.AllDone)
    (reg : Nat)
    (val : List Byte) :
    (before.written reg val).AllDone :=
  ⟨done.writes, done.reads⟩

theorem Priv.AllDone.masked
    (done : before.AllDone)
    (writes : List (MaskedWrite Nat 8)) :
    (before.masked writes).AllDone := by
  unfold Priv.masked
  induction writes generalizing before with
  | nil =>
      exact done
  | cons first rest inductionHypothesis =>
      exact inductionHypothesis (done.written _ _)

/-- However the calibration goes, the intermediate frequency is that of the standard. -/
theorem setTvStandard_intFreq
    (done : before.AllDone)
    {answer : Except Int32 Unit}
    (yields : Yields (setTvStandard .digitalTv).run before answer after) :
    after.intFreq = 3570000 := by
  have stored : (shadowStore 0x05 initArray before).AllDone :=
    ⟨done.writes, done.reads⟩
  rw [setTvStandard,
    yields_run_bind_ok (yields_run_modify.mpr ⟨rfl, rfl⟩),
    yields_run_bind_ok
      ((yields_writeMasks stored (by decide)).mpr ⟨rfl, rfl⟩),
    yields_run_bind_ok
      ((yields_writeMasks (stored.masked _) (by decide)).mpr ⟨rfl, rfl⟩),
    yields_run_bind_ok (yields_run_modify.mpr ⟨rfl, rfl⟩)] at yields
  exact congrArg Prod.snd (finishTvStandard_steady.keeps yields)

theorem init_intFreq
    (done : before.AllDone)
    {answer : Except Int32 Unit}
    (yields : Yields init.run before answer after) :
    after.intFreq = 3570000 := by
  have capSet : ({ before with xtalCapSel := .highCap0p } : Priv).AllDone :=
    ⟨done.writes, done.reads⟩
  rw [init,
    yields_run_bind_ok (yields_run_modify.mpr ⟨rfl, rfl⟩),
    yields_run_bind_ok
      (yields_run_outcome.mpr
        ⟨_, (yields_write capSet).mpr ⟨rfl, rfl⟩, rfl⟩)] at yields
  rcases yields_run_bind.mp yields with
    ⟨_, failed, _⟩ | ⟨_, middle, standardSet, yields⟩
  · exact setTvStandard_intFreq (capSet.written _ _) failed
  · have intFreq :=
      setTvStandard_intFreq (capSet.written _ _) standardSet
    rw [← intFreq]
    refine Confined.keeps (Confined.runBind ?_ fun selected =>
      (Confined.runModify (fun priv => ?_)).runBind fun _ => ?_) yields
    · exact ((sysfreqSel_steady _ _ _).comp Prod.snd).runOutcome
    · rfl
    · split
      · exact Confined.runThrow _
      · exact Confined.runPure _

/-- With transfers that succeed the bandwidth is set and `int_freq` returned. -/
theorem setBandwidth_returns
    (done : before.AllDone)
    {bw : Int}
    {answer : Except Int32 UInt32}
    (yields : Yields (setBandwidth bw).run before answer after) :
    answer = .ok after.intFreq := by
  have set :
      ({ before with intFreq := (bandwidthSetting bw).intFreq } :
        Priv).AllDone :=
    ⟨done.writes, done.reads⟩
  rw [setBandwidth,
    yields_run_bind_ok (yields_run_modify.mpr ⟨rfl, rfl⟩),
    yields_run_bind_ok
      ((yields_writeMasks set (by simp [Shadowed])).mpr ⟨rfl, rfl⟩),
    yields_run_bind_ok (yields_run_get.mpr ⟨rfl, rfl⟩)] at yields
  rcases yields_run_pure.mp yields with ⟨rfl, rfl⟩
  rfl

end Success

end LibRtlSdr.R82xx
