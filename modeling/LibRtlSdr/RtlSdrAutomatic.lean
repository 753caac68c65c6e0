import LibRtlSdr.RtlSdrIfTracking
import LibRtlSdr.R82xxInit

namespace LibRtlSdr.RtlSdr

open DriverProgram PartialRun R82xx

/-!
# An R820T in automatic mode

What `rtlsdr_set_center_freq` makes of a stick whose transfers succeed, when the
library chooses between the tuner and direct sampling: it sends the tuner to
standby below 24 MHz, and initialises it again when it comes back.
-/

/-- An R820T in automatic mode, at the clocks it is opened with. -/
structure Device.Automatic
    (Tuner : Priv → Prop)
    (sampling : Int)
    (freq : UInt32)
    (device : Device Stick) : Prop where
  answers : ∀ place, device.hardware.demod.answers place = true
  done : device.hardware.tuner.AllDone
  automatic : device.directSamplingMode = 0
  isR820t : device.tunerType = .r820t
  tunXtal : device.tunXtal = 28800000
  corr : device.corr = 0
  offsFreq : device.offsFreq = 0
  directSampling : device.directSampling = sampling
  freq : device.freq = freq
  tuner : Tuner device.hardware.tuner

/-- The sampling mode for a frequency. -/
def samplingOf (freq : UInt32) : Int :=
  if freq < 24000000 then 2 else 0

namespace Device.Automatic

variable {before : Device Stick} {Tuner : Priv → Prop} {sampling : Int}
  {freq : UInt32}

theorem responsive
    (automatic : before.Automatic Tuner sampling freq) :
    before.Responsive :=
  ⟨automatic.answers, automatic.done⟩

theorem samplingFor
    (automatic : before.Automatic Tuner sampling freq)
    (next : UInt32) :
    before.samplingFor next = samplingOf next := by
  unfold Device.samplingFor samplingOf
  rw [if_pos automatic.automatic]
  simp only [automatic.isR820t, and_true]

theorem tunerClock
    (automatic : before.Automatic Tuner sampling freq) :
    before.tunerClock = 28800000 := by
  unfold Device.tunerClock
  rw [automatic.tunXtal, automatic.corr]
  decide

end Device.Automatic

section Operations

variable {before : Device Stick} {Tuner : Priv → Prop} {sampling : Int}
  {freq : UInt32}

theorem demodWriteReg_returns
    (automatic : before.Automatic Tuner sampling freq)
    (page addr : Nat)
    (val : UInt16)
    (len : Nat) :
    Returns (demodWriteReg r82xxBoard page addr val len) before 0
      (Device.Automatic Tuner sampling freq) := by
  refine ⟨before.demodWritten page addr val len,
    (yields_demodWriteReg automatic.responsive).mpr ⟨rfl, rfl⟩, ?_⟩
  exact
    { automatic with
      answers := automatic.answers
      tuner := automatic.tuner }

theorem setI2cRepeater_returns
    (automatic : before.Automatic Tuner sampling freq)
    (on : Bool) :
    Returns (setI2cRepeater r82xxBoard on) before ()
      (Device.Automatic Tuner sampling freq) :=
  (demodWriteReg_returns automatic _ _ _ _).bind
    fun _ automatic => Returns.pure automatic

theorem setIfFreq_returns
    (automatic : before.Automatic Tuner sampling freq)
    (intFreq : UInt32) :
    Returns (setIfFreq r82xxBoard intFreq) before 0
      (Device.Automatic Tuner sampling freq) := by
  refine Returns.getBind ?_
  refine (demodWriteReg_returns automatic _ _ _ _).orAllCons
    fun _ automatic => ?_
  refine (demodWriteReg_returns automatic _ _ _ _).orAllCons
    fun _ automatic => ?_
  refine (demodWriteReg_returns automatic _ _ _ _).orAllCons
    fun _ automatic => ?_
  exact Returns.orAllNil automatic

/-- A function of the tuner only changes the tuner. -/
theorem onTuner_returns
    {Value : Type}
    {call : Program Priv Value}
    {value : Value}
    {Later : Priv → Prop}
    (automatic : before.Automatic Tuner sampling freq)
    (returns :
      Returns call before.hardware.tuner value
        (fun tuner => tuner.AllDone ∧ Later tuner)) :
    Returns (onHardware (onTuner call)) before value
      (Device.Automatic Later sampling freq) := by
  rcases returns with ⟨tuner, yields, done, later⟩
  refine ⟨{ before with hardware := { before.hardware with tuner := tuner } },
    yields_onPart.mpr
      ⟨_, yields_onPart.mpr ⟨tuner, yields, rfl⟩, rfl⟩, ?_⟩
  exact
    { automatic with
      answers := automatic.answers
      done := done
      tuner := later }

end Operations

section Switching

variable {before : Device Stick} {report : Report} {settings : Settings}
  {sampling : Int} {freq : UInt32}

/-- The device when its tuner has the settings. -/
abbrev Device.Plays
    (report : Report)
    (settings : Settings) :
    Int → UInt32 → Device Stick → Prop :=
  Device.Automatic (Shows report settings)

/-- A function of the tuner that has an effect on the settings. -/
theorem onShown_returns
    {Value : Type}
    {call : Program Priv Value}
    {value : Value}
    {later : Settings}
    (plays : before.Plays report settings sampling freq)
    (returns :
      Returns call before.hardware.tuner value (Shows report later)) :
    Returns (onHardware (onTuner call)) before value
      (Device.Plays report later sampling freq) :=
  onTuner_returns plays (returns.mono fun _ shows => ⟨shows.done, shows⟩)

/-- `r820t_init` at the clock of the device. -/
theorem initTuner_returns
    {context : TunerContext}
    {priv : Priv}
    (done : priv.AllDone)
    (blogV4 : priv.blogV4 = report.blogV4)
    (reported : priv.bus.reported = report.reported)
    (isR820t : context.tunerType = .r820t)
    (tunerClock : context.tunerClock = 28800000) :
    Returns (initTuner context) priv 0
      (Shows report (initSettings report priv.bus.reads)) := by
  have wired : Wired report (configure context priv) := by
    refine ⟨⟨done.writes, done.reads⟩, tunerClock, ?_, blogV4, reported⟩
    unfold configure
    rw [isR820t]
    rfl
  exact Returns.modifyBind (init_returns wired).result

theorem tunerExit_returns
    (plays : before.Plays report settings sampling freq)
    (initDone : settings.initDone = true) :
    Returns (tunerExit r82xxBoard) before 0
      (Device.Plays report settings.standby sampling freq) := by
  refine (setI2cRepeater_returns plays true).bind fun _ plays => ?_
  refine (onShown_returns plays
    (standby_returns plays.tuner initDone).result).bind fun _ plays => ?_
  exact (setI2cRepeater_returns plays false).bind
    fun _ plays => Returns.pure plays

theorem tunerInit_returns
    (plays : before.Plays report settings sampling freq) :
    Returns (tunerInit r82xxBoard) before 0
      (Device.Plays report (initSettings report settings.place)
        sampling freq) := by
  refine (setI2cRepeater_returns plays true).bind fun opened plays => ?_
  refine Returns.getBind ?_
  have returns :
      Returns (initTuner opened.context) opened.hardware.tuner 0
        (Shows report
          (initSettings report opened.hardware.tuner.bus.reads)) :=
    initTuner_returns plays.done plays.tuner.blogV4 plays.tuner.reported
      plays.isR820t plays.tunerClock
  rw [plays.tuner.place] at returns
  refine (onShown_returns plays returns).bind fun _ plays => ?_
  exact (setI2cRepeater_returns plays false).bind
    fun _ plays => Returns.pure plays

/-- The operations that turn direct sampling on send the tuner to standby. -/
theorem enable_returns
    (plays : before.Plays report settings sampling freq)
    (initDone : settings.initDone = true) :
    Returns (orAll (switchOperations r82xxBoard .r820t 2)) before 0
      (Device.Plays report settings.standby sampling freq) := by
  refine (tunerExit_returns plays initDone).orAllCons fun _ plays => ?_
  refine (demodWriteReg_returns plays _ _ _ _).orAllCons fun _ plays => ?_
  refine (demodWriteReg_returns plays _ _ _ _).orAllCons fun _ plays => ?_
  refine (demodWriteReg_returns plays _ _ _ _).orAllCons fun _ plays => ?_
  refine (demodWriteReg_returns plays _ _ _ _).orAllCons fun _ plays => ?_
  exact Returns.orAllNil plays

/-- Those that turn it off initialise the tuner. -/
theorem disable_returns
    (plays : before.Plays report settings sampling freq) :
    Returns (orAll (switchOperations r82xxBoard .r820t 0)) before 0
      (Device.Plays report (initSettings report settings.place)
        sampling freq) := by
  refine (tunerInit_returns plays).orAllCons fun _ plays => ?_
  refine (setIfFreq_returns plays _).orAllCons fun _ plays => ?_
  refine (demodWriteReg_returns plays _ _ _ _).orAllCons fun _ plays => ?_
  refine (demodWriteReg_returns plays _ _ _ _).orAllCons fun _ plays => ?_
  exact Returns.orAllNil plays

end Switching

section Tuning

variable {before : Device Stick} {report : Report} {settings : Settings}
  {sampling : Int} {old freq : UInt32}

/-- The sampling mode that a device is aimed at. -/
theorem Device.Automatic.aimedAt
    {Tuner : Priv → Prop}
    (automatic : before.Automatic Tuner sampling old)
    (freq : UInt32) :
    (before.aimedAt freq).Automatic Tuner (samplingOf freq) old :=
  { automatic with
    answers := automatic.answers
    directSampling := automatic.samplingFor freq
    tuner := automatic.tuner }

/-- The frequency that is stored when the answer to a tuning is known. -/
theorem Device.Automatic.tuned
    {Tuner : Priv → Prop}
    (automatic : before.Automatic Tuner sampling old)
    (freq : UInt32)
    (answer : Int32) :
    (before.tuned freq answer).Automatic Tuner sampling
      (if answer = 0 then freq else 0) :=
  { automatic with
    answers := automatic.answers
    freq := rfl
    tuner := automatic.tuner }

/-- Direct sampling is tuned by the demodulator alone. -/
theorem tune_direct
    (plays : before.Plays report settings sampling old)
    (direct : sampling ≠ 0)
    (freq : UInt32) :
    Returns (tune r82xxBoard freq) before 0
      (Device.Plays report settings sampling old) := by
  refine Returns.getBind ?_
  rw [if_pos (plays.directSampling.symm ▸ direct)]
  refine (setI2cRepeater_returns plays false).bind fun _ plays => ?_
  exact setIfFreq_returns plays freq

/-- Otherwise the tuner is tuned, if its PLL accepts the frequency. -/
theorem tune_shown
    (plays : before.Plays report settings 0 old)
    (freq : UInt32) :
    Returns (tune r82xxBoard freq) before (settings.retuned report freq).1
      (Device.Plays report (settings.retuned report freq).2 0 old) := by
  refine Returns.getBind ?_
  rw [if_neg (not_not_intro plays.directSampling), plays.offsFreq,
    UInt32.sub_zero]
  refine (setI2cRepeater_returns plays true).bind fun _ plays => ?_
  exact onShown_returns plays (setFreq_returns plays.tuner freq)

/-- A tuning, and then the switch to another sampling mode where it belongs to one. -/
theorem setCenterFreqAt_afterTuning
    {answer final : Int32}
    {later : Settings}
    {Post : Device Stick → Prop}
    (plays : before.Plays report settings sampling old)
    (known : 0 ≤ sampling)
    (tunes :
      Returns (tune r82xxBoard freq) (before.aimedAt freq) answer
        (Device.Plays report later (samplingOf freq) old))
    {nested : Nat}
    (switches :
      ∀ middle,
        Device.Plays report later (samplingOf freq)
          (if answer = 0 then freq else 0) middle →
        Returns
          (if sampling ≠ samplingOf freq then
            switchSampling r82xxBoard (setCenterFreqAt r82xxBoard nested)
              (samplingOf freq)
          else
            pure answer)
          middle final Post) :
    Returns (setCenterFreqAt r82xxBoard (nested + 1) freq) before final
      Post := by
  unfold setCenterFreqAt
  refine Returns.getBind ?_
  rw [if_neg (by simp [r82xxBoard]), plays.directSampling,
    if_neg (Int.not_lt.mpr known)]
  refine Returns.setBind ?_
  refine tunes.bind fun _ plays => ?_
  refine Returns.modifyBind ?_
  refine Returns.getBind ?_
  have plays := plays.tuned freq answer
  rw [plays.directSampling]
  exact switches _ plays

/-- A tuning in the sampling mode that belongs to its frequency. -/
theorem setCenterFreqAt_stays
    {answer : Int32}
    {later : Settings}
    (plays : before.Plays report settings sampling old)
    (known : 0 ≤ sampling)
    (settled : sampling = samplingOf freq)
    (tunes :
      Returns (tune r82xxBoard freq) (before.aimedAt freq) answer
        (Device.Plays report later (samplingOf freq) old))
    (nested : Nat) :
    Returns (setCenterFreqAt r82xxBoard (nested + 1) freq) before answer
      (Device.Plays report later sampling
        (if answer = 0 then freq else 0)) := by
  refine setCenterFreqAt_afterTuning plays known tunes ?_
  intro middle plays
  rw [if_neg (not_not_intro settled)]
  rw [← settled] at plays
  exact Returns.pure plays

/-- A tuning in another sampling mode switches to it, and tunes again. -/
theorem setCenterFreqAt_switches
    {answer final : Int32}
    {later : Settings}
    {Post : Device Stick → Prop}
    (plays : before.Plays report settings sampling old)
    (known : 0 ≤ sampling)
    (changes : sampling ≠ samplingOf freq)
    (tunes :
      Returns (tune r82xxBoard freq) (before.aimedAt freq) answer
        (Device.Plays report later (samplingOf freq) old))
    {nested : Nat}
    (switches :
      ∀ middle,
        Device.Plays report later (samplingOf freq)
          (if answer = 0 then freq else 0) middle →
        Returns
          (switchSampling r82xxBoard (setCenterFreqAt r82xxBoard nested)
            (samplingOf freq))
          middle final Post) :
    Returns (setCenterFreqAt r82xxBoard (nested + 1) freq) before final
      Post := by
  refine setCenterFreqAt_afterTuning plays known tunes ?_
  intro middle plays
  rw [if_pos changes]
  exact switches middle plays

/-- Switching to a sampling mode, with the operations and the tuning after them. -/
theorem switchSampling_returns
    {retune : UInt32 → Program (Device Stick) Int32}
    {on : Int}
    {later : Settings}
    {answer : Int32}
    {Post : Device Stick → Prop}
    (plays : before.Plays report settings sampling freq)
    (operations :
      Returns (orAll (switchOperations r82xxBoard .r820t on)) before 0
        (Device.Plays report later sampling freq))
    (retunes :
      ∀ middle,
        Device.Plays report later on freq middle →
        Returns (retune freq) middle answer Post) :
    Returns (switchSampling r82xxBoard retune on) before answer Post := by
  unfold switchSampling
  refine Returns.getBind ?_
  rw [plays.isR820t]
  refine operations.bind fun middle plays => ?_
  refine Returns.modifyBind ?_
  refine Returns.getBind ?_
  have switched :
      Device.Plays report later on freq (middle.switchedTo on) :=
    { plays with
      answers := plays.answers
      directSampling := rfl
      tuner := plays.tuner }
  have sameFreq : (middle.switchedTo on).freq = freq := plays.freq
  rw [sameFreq]
  refine (retunes _ switched).bind fun _ post => ?_
  rw [Int32.zero_or]
  exact Returns.pure post

/-- A low frequency while direct sampling is on. -/
theorem setCenterFreqAt_direct
    (plays : before.Plays report settings 2 old)
    (low : freq < 24000000)
    (nested : Nat) :
    Returns (setCenterFreqAt r82xxBoard (nested + 1) freq) before 0
      (Device.Plays report settings 2 freq) := by
  have settled : samplingOf freq = 2 := if_pos low
  have aimed := plays.aimedAt freq
  exact setCenterFreqAt_stays plays (by decide) settled.symm
    (tune_direct aimed (by rw [settled]; decide) freq) nested

/-- A low frequency while the tuner is in use sends it to standby. -/
theorem setCenterFreqAt_leaves
    (plays : before.Plays report settings 0 old)
    (initDone : settings.initDone = true)
    (low : freq < 24000000)
    (nested : Nat) :
    Returns (setCenterFreqAt r82xxBoard (nested + 2) freq) before 0
      (Device.Plays report settings.standby 2 freq) := by
  have direct : samplingOf freq = 2 := if_pos low
  have aimed := plays.aimedAt freq
  refine setCenterFreqAt_switches plays (by decide) (by rw [direct]; decide)
    (tune_direct aimed (by rw [direct]; decide) freq) fun middle plays => ?_
  rw [direct] at plays ⊢
  exact switchSampling_returns plays (enable_returns plays initDone)
    fun last plays => setCenterFreqAt_direct plays low nested

/-- The frequency that the device stores when the tuner has been tuned. -/
def storedFreq
    (settings : Settings)
    (report : Report)
    (freq : UInt32) :
    UInt32 :=
  if settings.Accept report freq then freq else 0

theorem storedFreq_eq
    (settings : Settings)
    (report : Report)
    (freq : UInt32) :
    (if (settings.retuned report freq).1 = 0 then freq else 0) =
      storedFreq settings report freq := by
  unfold Settings.retuned storedFreq
  split <;>
    rfl

/-- A high frequency goes through the tuner. -/
theorem samplingOf_high
    (high : 24000000 ≤ freq) :
    samplingOf freq = 0 :=
  if_neg (UInt32.not_lt.mpr high)

/-- So it tunes the tuner, whatever the sampling mode before. -/
theorem tune_high
    (plays : before.Plays report settings sampling old)
    (high : 24000000 ≤ freq) :
    Returns (tune r82xxBoard freq) (before.aimedAt freq)
      (settings.retuned report freq).1
      (Device.Plays report (settings.retuned report freq).2 (samplingOf freq) old) := by
  have aimed := plays.aimedAt freq
  rw [samplingOf_high high] at aimed ⊢
  exact tune_shown aimed freq

/-- A high frequency while the tuner is in use. -/
theorem setCenterFreqAt_tuned
    (plays : before.Plays report settings 0 old)
    (high : 24000000 ≤ freq)
    (nested : Nat) :
    Returns (setCenterFreqAt r82xxBoard (nested + 1) freq) before
      (settings.retuned report freq).1
      (Device.Plays report (settings.retuned report freq).2 0
        (storedFreq settings report freq)) := by
  have throughTuner := samplingOf_high high
  have tunes := tune_high plays high
  rw [← storedFreq_eq]
  exact setCenterFreqAt_stays plays (by decide) throughTuner.symm tunes nested

/-- The settings when the tuner is initialised again for a frequency. -/
def reinitialised
    (settings : Settings)
    (report : Report)
    (freq : UInt32) :
    Settings :=
  initSettings report (settings.retuned report freq).2.place

/-- A high frequency while direct sampling is on, which the PLL accepts. -/
theorem setCenterFreqAt_comesBack
    (plays : before.Plays report settings 2 old)
    (high : 24000000 ≤ freq)
    (accepts : settings.Accept report freq)
    (nested : Nat) :
    Returns (setCenterFreqAt r82xxBoard (nested + 2) freq) before
      ((reinitialised settings report freq).retuned report freq).1
      (Device.Plays report
        ((reinitialised settings report freq).retuned report freq).2 0
        (storedFreq (reinitialised settings report freq) report freq)) := by
  have throughTuner := samplingOf_high high
  have tunes := tune_high plays high
  refine setCenterFreqAt_switches plays (by decide)
    (by rw [throughTuner]; decide) tunes fun middle plays => ?_
  rw [storedFreq_eq, storedFreq, if_pos accepts, throughTuner] at plays
  rw [throughTuner]
  exact switchSampling_returns plays (disable_returns plays)
    fun last plays => setCenterFreqAt_tuned plays high nested

/--
A high frequency while direct sampling is on, which the PLL refuses: the library
tunes to zero, and thus goes back to direct sampling.
-/
theorem setCenterFreqAt_fallsBack
    (plays : before.Plays report settings 2 old)
    (high : 24000000 ≤ freq)
    (refused : ¬ settings.Accept report freq)
    (nested : Nat) :
    Returns (setCenterFreqAt r82xxBoard (nested + 3) freq) before 0
      (Device.Plays report (reinitialised settings report freq).standby
        2 0) := by
  have throughTuner := samplingOf_high high
  have tunes := tune_high plays high
  refine setCenterFreqAt_switches plays (by decide)
    (by rw [throughTuner]; decide) tunes fun middle plays => ?_
  rw [storedFreq_eq, storedFreq, if_neg refused, throughTuner] at plays
  rw [throughTuner]
  exact switchSampling_returns plays (disable_returns plays)
    fun last plays => setCenterFreqAt_leaves plays rfl (by decide) nested

end Tuning

end LibRtlSdr.RtlSdr
