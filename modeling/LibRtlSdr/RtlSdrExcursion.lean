import LibRtlSdr.RtlSdrAutomatic

namespace LibRtlSdr.RtlSdr

open DriverProgram MaskedWrites PartialRun R82xx

/-!
# An excursion to shortwave

A program that tunes an R820T below 24 MHz and back finds the tuner initialised
again.  The gain, the filter and the intermediate frequency that it had set
survive only if they are those of an initialisation.
-/

/-- The setters that leave the clocks and the choice of the sampling mode alone. -/
def Setter.Plain : Setter → Prop
  | .sampleRate _ => True
  | .tunerBandwidth _ => True
  | .tunerGain _ => True
  | .tunerGainMode _ => True
  | .centerFreq _ => True
  | .freqCorrection _ => False
  | .xtalFreq _ _ => False
  | .directSampling _ => False

/-- A device between the calls of a program that uses plain setters. -/
def Device.Ordinary (report : Report) (device : Device Stick) : Prop :=
  ∃ settings sampling freq,
    device.Plays report settings sampling freq ∧
      settings.initDone = true ∧
        (sampling = 2 ∨ sampling = 0 ∧ settings.Awake)

section Steps

variable {before : Device Stick} {report : Report} {settings : Settings}
  {sampling : Int} {freq : UInt32}

theorem Device.Plays.ordinary_of_direct
    (plays : before.Plays report settings 2 freq)
    (initDone : settings.initDone = true) :
    before.Ordinary report :=
  ⟨settings, 2, freq, plays, initDone, Or.inl rfl⟩

theorem Device.Plays.ordinary_of_tuner
    (plays : before.Plays report settings 0 freq)
    (initDone : settings.initDone = true)
    (awake : settings.Awake) :
    before.Ordinary report :=
  ⟨settings, 0, freq, plays, initDone, Or.inr ⟨rfl, awake⟩⟩

theorem setCenterFreq_ordinary
    (ordinary : before.Ordinary report)
    (freq : UInt32) :
    Completes (setCenterFreq r82xxBoard freq) before
      (Device.Ordinary report) := by
  rcases ordinary with ⟨settings, sampling, old, plays, initDone, modes⟩
  by_cases low : freq < 24000000
  · rcases modes with rfl | ⟨rfl, _⟩
    · exact ((setCenterFreqAt_direct plays low 2).mono
        fun _ plays => plays.ordinary_of_direct initDone).completes
    · exact ((setCenterFreqAt_leaves plays initDone low 1).mono
        fun _ plays => plays.ordinary_of_direct initDone).completes
  · have high : 24000000 ≤ freq := UInt32.not_lt.mp low
    rcases modes with rfl | ⟨rfl, awake⟩
    · by_cases accepts : settings.Accept report freq
      · refine ((setCenterFreqAt_comesBack plays high accepts 1).mono
          fun _ plays => plays.ordinary_of_tuner ?_ ?_).completes
        · exact Settings.retuned_initDone _ report freq
        · exact (initSettings_awake report _).retuned report freq
      · exact ((setCenterFreqAt_fallsBack plays high accepts 0).mono
          fun _ plays => plays.ordinary_of_direct rfl).completes
    · refine ((setCenterFreqAt_tuned plays high 2).mono
        fun _ plays => plays.ordinary_of_tuner ?_ ?_).completes
      · exact (settings.retuned_initDone report freq).trans initDone
      · exact awake.retuned report freq

/-- A function of the tuner after which its settings are as much in order as before. -/
theorem Device.Ordinary.onTuner
    {Value : Type}
    {call : Program Priv Value}
    (ordinary : before.Ordinary report)
    (returns :
      ∀ {settings : Settings} {tuner : Priv},
        Shows report settings tuner →
        ∃ later : Settings,
          later.initDone = settings.initDone ∧
            (settings.Awake → later.Awake) ∧
            Completes call tuner (Shows report later)) :
    Completes (onHardware (RtlSdr.onTuner call)) before
      (Device.Ordinary report) := by
  rcases ordinary with ⟨settings, sampling, freq, plays, initDone, modes⟩
  rcases returns plays.tuner with ⟨later, sameInit, wakes, value, returned⟩
  refine ⟨value, (onShown_returns plays returned).mono fun _ plays => ?_⟩
  refine ⟨later, sampling, freq, plays, sameInit.trans initDone, ?_⟩
  rcases modes with direct | ⟨inUse, awake⟩
  · exact Or.inl direct
  · exact Or.inr ⟨inUse, wakes awake⟩

/-- The rate, the bandwidth and the gain that the library stores do not matter. -/
theorem Device.Ordinary.stored
    (ordinary : before.Ordinary report)
    (rate bw : UInt32)
    (gain : Int) :
    ({ before with rate := rate, bw := bw, gain := gain } :
      Device Stick).Ordinary report := by
  rcases ordinary with ⟨settings, sampling, freq, plays, rest⟩
  refine ⟨settings, sampling, freq, ?_, rest⟩
  exact
    { plays with
      answers := plays.answers
      tuner := plays.tuner }

theorem demodWriteReg_ordinary
    (ordinary : before.Ordinary report)
    (page addr : Nat)
    (val : UInt16)
    (len : Nat) :
    Completes (demodWriteReg r82xxBoard page addr val len) before
      (Device.Ordinary report) := by
  rcases ordinary with ⟨settings, sampling, freq, plays, rest⟩
  exact ((demodWriteReg_returns plays page addr val len).mono
    fun _ plays => ⟨settings, sampling, freq, plays, rest⟩).completes

theorem setI2cRepeater_ordinary
    (ordinary : before.Ordinary report)
    (on : Bool) :
    Completes (setI2cRepeater r82xxBoard on) before
      (Device.Ordinary report) :=
  (demodWriteReg_ordinary ordinary _ _ _ _).bind
    fun _ _ ordinary => Completes.pure ordinary

theorem setIfFreq_ordinary
    (ordinary : before.Ordinary report)
    (intFreq : UInt32) :
    Completes (setIfFreq r82xxBoard intFreq) before
      (Device.Ordinary report) := by
  rcases ordinary with ⟨settings, sampling, freq, plays, rest⟩
  exact ((setIfFreq_returns plays intFreq).mono
    fun _ plays => ⟨settings, sampling, freq, plays, rest⟩).completes

theorem setGain_ordinary
    (ordinary : before.Ordinary report)
    (manual : Bool)
    (gain : Int) :
    Completes (onHardware (onTuner (R82xx.setGain manual gain).result))
      before (Device.Ordinary report) := by
  refine ordinary.onTuner fun shows => ?_
  rcases setGain_returns shows manual gain with
    ⟨gained, sameInit, wakes, returns⟩
  exact ⟨gained, sameInit, wakes, returns.result.completes⟩

theorem setBw_ordinary
    (ordinary : before.Ordinary report)
    (bw : Int) :
    Completes (setBw bw) before (Device.Ordinary report) := by
  have sets :
      Completes (onHardware (onTuner (R82xx.setBandwidth bw).run)) before
        (Device.Ordinary report) :=
    ordinary.onTuner fun {settings _} shows =>
      ⟨settings.withBandwidth bw, rfl, fun awake => awake.withBandwidth bw,
        (setBandwidth_shows shows bw).completes⟩
  refine sets.bind fun outcome _ ordinary => ?_
  cases outcome with
  | error code =>
      exact Completes.pure ordinary
  | ok intFreq =>
      refine (setIfFreq_ordinary ordinary intFreq).bind
        fun answer _ ordinary => ?_
      split
      · exact Completes.pure ordinary
      · exact Completes.getBind (setCenterFreq_ordinary ordinary _)

theorem setTunerBandwidth_ordinary
    (ordinary : before.Ordinary report)
    (bw : UInt32) :
    Completes (setTunerBandwidth bw) before (Device.Ordinary report) := by
  refine (setI2cRepeater_ordinary ordinary true).bind fun _ _ ordinary => ?_
  refine Completes.getBind ?_
  refine (setBw_ordinary ordinary _).bind fun answer _ ordinary => ?_
  refine (setI2cRepeater_ordinary ordinary false).bind
    fun _ _ ordinary => ?_
  split
  · exact Completes.pure ordinary
  · exact Completes.modifyBind (Completes.pure (ordinary.stored _ bw _))

theorem setTunerGain_ordinary
    (ordinary : before.Ordinary report)
    (gain : Int) :
    Completes (setTunerGain gain) before (Device.Ordinary report) := by
  refine (setI2cRepeater_ordinary ordinary true).bind fun _ _ ordinary => ?_
  refine (setGain_ordinary ordinary true gain).bind
    fun answer _ ordinary => ?_
  exact Completes.modifyBind (Completes.pure (ordinary.stored _ _ _))

theorem setTunerGainMode_ordinary
    (ordinary : before.Ordinary report)
    (manual : Bool) :
    Completes (setTunerGainMode manual) before (Device.Ordinary report) :=
  (setI2cRepeater_ordinary ordinary true).bind
    fun _ _ ordinary => setGain_ordinary ordinary manual 0

theorem setSampleFreqCorrection_ordinary
    (ordinary : before.Ordinary report)
    (ppm : Int) :
    Completes (setSampleFreqCorrection ppm) before
      (Device.Ordinary report) := by
  refine Completes.orAll ?_ ordinary
  intro operation member state ordinary
  simp only [List.mem_cons, List.not_mem_nil, or_false] at member
  rcases member with rfl | rfl <;>
    exact demodWriteReg_ordinary ordinary _ _ _ _

theorem setSampleRate_ordinary
    (ordinary : before.Ordinary report)
    (sampRate : UInt32) :
    Completes (setSampleRate sampRate) before (Device.Ordinary report) := by
  unfold setSampleRate
  split
  · exact Completes.pure ordinary
  · refine Completes.getBind (Completes.modifyBind ?_)
    refine (setI2cRepeater_ordinary (ordinary.stored _ _ _) true).bind
      fun _ _ ordinary => ?_
    refine Completes.getBind ?_
    refine (setBw_ordinary ordinary _).bind fun _ _ ordinary => ?_
    refine (setI2cRepeater_ordinary ordinary false).bind
      fun _ _ ordinary => ?_
    refine Completes.getBind (Completes.orAll ?_ ordinary)
    intro operation member state ordinary
    simp only [List.mem_cons, List.not_mem_nil, or_false] at member
    rcases member with rfl | rfl | rfl | rfl | rfl
    · exact demodWriteReg_ordinary ordinary _ _ _ _
    · exact demodWriteReg_ordinary ordinary _ _ _ _
    · exact setSampleFreqCorrection_ordinary ordinary _
    · exact demodWriteReg_ordinary ordinary _ _ _ _
    · exact demodWriteReg_ordinary ordinary _ _ _ _

/-- Every plain setter returns, and leaves the device in order. -/
theorem plain_ordinary
    {setter : Setter}
    (plain : setter.Plain)
    (ordinary : before.Ordinary report) :
    Completes setter.call before (Device.Ordinary report) := by
  cases setter with
  | sampleRate sampRate =>
      exact setSampleRate_ordinary ordinary sampRate
  | tunerBandwidth bw =>
      exact setTunerBandwidth_ordinary ordinary bw
  | tunerGain gain =>
      exact setTunerGain_ordinary ordinary gain
  | tunerGainMode manual =>
      exact setTunerGainMode_ordinary ordinary manual
  | centerFreq freq =>
      exact setCenterFreq_ordinary ordinary freq
  | freqCorrection ppm =>
      cases plain
  | xtalFreq rtlFreq tunerFreq =>
      cases plain
  | directSampling on =>
      cases plain

end Steps

section Reached

theorem openFound_software :
    Keeps Device.software openFound := by
  refine Keeps.bind (Keeps.orAll ?_) fun _ => Keeps.get.bind fun _ =>
    (onHardware_keeps _).bind fun _ =>
      (setI2cRepeater_keeps r82xxBoard false).bind fun _ => Keeps.pure _
  intro operation member
  simp only [List.mem_cons, List.not_mem_nil, or_false] at member
  rcases member with rfl | rfl | rfl | rfl
  · exact onHardware_keeps _
  · exact onHardware_keeps _
  · exact setIfFreq_keeps r82xxBoard _
  · exact onHardware_keeps _

/-- `rtlsdr_open` leaves an R820T in order. -/
theorem openFound_ordinary
    {blogV4 : Bool}
    {demod : Demod}
    {bus : Bus}
    (demodDone : ∀ place, demod.answers place = true)
    (tunerDone : (clearedTuner blogV4 bus).AllDone) :
    Returns openFound (foundDevice .r820t blogV4 demod bus) 0
      (Device.Ordinary (clearedTuner blogV4 bus).report) := by
  have found :
      (foundDevice .r820t blogV4 demod bus).Automatic
        (fun tuner => tuner = clearedTuner blogV4 bus) 0 0 :=
    ⟨demodDone, tunerDone, rfl, rfl, rfl, rfl, rfl, rfl, rfl, rfl⟩
  unfold openFound
  have writes :
      Returns
        (orAll
          [demodWriteReg r82xxBoard 1 0xb1 0x1a 1,
            demodWriteReg r82xxBoard 0 0x08 0x4d 1,
            setIfFreq r82xxBoard r82xxIfFreq,
            demodWriteReg r82xxBoard 1 0x15 0x01 1])
        (foundDevice .r820t blogV4 demod bus) 0
        (Device.Automatic
          (fun tuner => tuner = clearedTuner blogV4 bus) 0 0) := by
    refine (demodWriteReg_returns found _ _ _ _).orAllCons
      fun _ automatic => ?_
    refine (demodWriteReg_returns automatic _ _ _ _).orAllCons
      fun _ automatic => ?_
    refine (setIfFreq_returns automatic _).orAllCons fun _ automatic => ?_
    refine (demodWriteReg_returns automatic _ _ _ _).orAllCons
      fun _ automatic => ?_
    exact Returns.orAllNil automatic
  refine writes.bind fun written automatic => ?_
  refine Returns.getBind ?_
  have initialised :
      Returns (initTuner written.context) written.hardware.tuner 0
        (Shows (clearedTuner blogV4 bus).report
          (initSettings (clearedTuner blogV4 bus).report bus.reads)) := by
    rw [automatic.tuner]
    exact initTuner_returns tunerDone rfl rfl automatic.isR820t
      automatic.tunerClock
  refine (onTuner_returns automatic
    (initialised.mono fun _ shows => ⟨shows.done, shows⟩)).bind
      fun _ plays => ?_
  refine (setI2cRepeater_returns plays false).bind fun _ plays => ?_
  exact Returns.pure
    (Device.Plays.ordinary_of_tuner plays rfl (initSettings_awake _ _))

/-- Every run of plain setters on an opened R820T leaves it in order. -/
theorem run_ordinary
    {opened before : Device Stick}
    (isOpened : Opened opened)
    (isR820t : opened.tunerType = .r820t)
    {setters : List Setter}
    (plain : ∀ setter ∈ setters, setter.Plain)
    (reached : run Device.step opened setters = some before) :
    ∃ report, before.Ordinary report := by
  rcases isOpened.isOpen with
    ⟨tunerType, blogV4, demod, bus, _, demodDone, tunerDone, opens⟩
  have sameType : opened.tunerType = tunerType :=
    congrArg (fun device : Device Unit => device.tunerType)
      (openFound_software opens)
  have found : tunerType = .r820t := sameType.symm.trans isR820t
  subst found
  refine ⟨(clearedTuner blogV4 bus).report, ?_⟩
  have initially : opened.Ordinary (clearedTuner blogV4 bus).report :=
    ((openFound_ordinary demodDone tunerDone).of_yields opens).2
  have everyStep :
      EveryStep Device.step (fun _ setter => setter.Plain) opened setters := by
    intro earlier setter later _ _ split _ _
    exact plain setter (by rw [split]; simp)
  refine invariant_of_everyStep
    (Device.Ordinary (clearedTuner blogV4 bus).report) ?_ initially everyStep
    reached
  intro device setter next ordinary isPlain taken
  rcases Device.step_eq_some.mp taken with ⟨_, yields⟩
  exact (plain_ordinary isPlain ordinary).of_yields yields

end Reached

/-- Two devices with the same gain and filter registers and intermediate frequency. -/
def SameSettings (first second : Device Stick) : Prop :=
  first.hardware.tuner.intFreq = second.hardware.tuner.intFreq ∧
    ∀ reg ∈ settingRegisters,
      first.hardware.tuner.bus.chip reg = second.hardware.tuner.bus.chip reg

/-- Where an excursion to shortwave initialises a tuner again on the way back. -/
def excursionInit (tuner : Priv) : Settings :=
  initSettings tuner.report (tuner.report.afterLock (tuner.bus.reads + 1))

/-- The LNA register of a tuner that has been tuned, with the input of a Blog V4. -/
def lnaRegister (settings : Settings) (report : Report) (freq : UInt32) : Byte :=
  if settings.switches report freq then
    valueAfter (blogV4Inputs (blogV4Band freq)) 0x05 (settings.registers 0x05)
  else
    settings.registers 0x05

/--
The settings of a tuner in use are those of an initialisation, with the filter
calibrated as the chip will report it, and its PLL accepts the frequency.
-/
structure Survives (tuner : Priv) (freq : UInt32) : Prop where
  accepts : tuner.settings.Accept tuner.report freq
  intFreq : tuner.intFreq = 3570000
  lna :
    lnaRegister (excursionInit tuner) tuner.report freq =
      lnaRegister tuner.settings tuner.report freq
  others :
    ∀ reg ∈ [0x07, 0x0c, 0x0a, 0x0b],
      (excursionInit tuner).registers reg = tuner.bus.chip reg

section Excursion

variable {before : Device Stick} {report : Report}

/-- Two devices have the same settings if their tuners show the same. -/
theorem sameSettings_iff
    {first second : Device Stick}
    {firstSettings secondSettings : Settings}
    (firstShows : Shows report firstSettings first.hardware.tuner)
    (secondShows : Shows report secondSettings second.hardware.tuner) :
    SameSettings first second ↔
      firstSettings.intFreq = secondSettings.intFreq ∧
        ∀ reg ∈ settingRegisters,
          firstSettings.registers reg = secondSettings.registers reg := by
  unfold SameSettings
  rw [firstShows.intFreq, secondShows.intFreq]
  refine and_congr_right fun _ =>
    forall_congr' fun reg => forall_congr' fun member => ?_
  rw [firstShows.registers reg member, secondShows.registers reg member]

/-- Only the LNA register depends on the input. -/
theorem tunedTo_registers_other
    (settings : Settings)
    (report : Report)
    (freq : UInt32)
    {reg : Nat}
    (other : reg ≠ 0x05 ∧ reg ≠ 0x06) :
    (settings.tunedTo report freq).registers reg = settings.registers reg := by
  rw [settings.tunedTo_registers]
  split
  · refine valueAfter_of_untouched ?_ _
    simp [blogV4Inputs, other.1.symm, other.2.symm]
  · rfl

/-- A tuned tuner and one that is initialised before have the same settings. -/
theorem tunedTo_same_iff
    (settings init : Settings)
    (report : Report)
    (freq : UInt32) :
    (∀ reg ∈ settingRegisters,
        (init.tunedTo report freq).registers reg =
          (settings.tunedTo report freq).registers reg) ↔
      lnaRegister init report freq = lnaRegister settings report freq ∧
        ∀ reg ∈ [0x07, 0x0c, 0x0a, 0x0b],
          init.registers reg = settings.registers reg := by
  have lna :
      ∀ settings : Settings,
        (settings.tunedTo report freq).registers 0x05 =
          lnaRegister settings report freq :=
    fun settings => settings.tunedTo_registers report freq 0x05
  have others :
      ∀ (settings : Settings),
        ∀ reg ∈ [0x07, 0x0c, 0x0a, 0x0b],
          (settings.tunedTo report freq).registers reg =
            settings.registers reg := by
    intro settings reg member
    apply tunedTo_registers_other
    revert reg
    decide
  unfold settingRegisters
  rw [List.forall_mem_cons, lna, lna]
  refine and_congr_right fun _ =>
    forall_congr' fun reg => forall_congr' fun member => ?_
  rw [others init reg member, others settings reg member]

theorem standby_accept
    (settings : Settings)
    (report : Report)
    (freq : UInt32) :
    settings.standby.Accept report freq ↔ settings.Accept report freq :=
  Iff.rfl

/-- Where the second initialisation begins, if the PLL accepts the frequency. -/
theorem reinitialised_standby
    {settings : Settings}
    {report : Report}
    {freq : UInt32}
    (accepts : settings.Accept report freq) :
    reinitialised settings.standby report freq =
      initSettings report (report.afterLock (settings.place + 1)) := by
  unfold reinitialised Settings.retuned
  rw [if_pos ((standby_accept settings report freq).mpr accepts)]
  dsimp only
  rw [Settings.tunedTo_place]
  rfl

/-- The settings on the way back against those of a tuner that was not away. -/
theorem retuned_same_iff
    {settings init : Settings}
    {report : Report}
    {freq : UInt32}
    (isStandard : init.intFreq = 3570000)
    (accepts : settings.Accept report freq) :
    ((init.retuned report freq).2.intFreq =
          (settings.retuned report freq).2.intFreq ∧
        ∀ reg ∈ settingRegisters,
          (init.retuned report freq).2.registers reg =
            (settings.retuned report freq).2.registers reg) ↔
      settings.intFreq = 3570000 ∧
        lnaRegister init report freq = lnaRegister settings report freq ∧
          ∀ reg ∈ [0x07, 0x0c, 0x0a, 0x0b],
            init.registers reg = settings.registers reg := by
  have intFreq :
      ∀ settings : Settings,
        (settings.retuned report freq).2.intFreq = settings.intFreq := by
    intro settings
    unfold Settings.retuned
    split
    · exact settings.tunedTo_intFreq report freq
    · rfl
  rw [intFreq, intFreq, isStandard, eq_comm]
  refine and_congr_right fun same => ?_
  have acceptsAgain : init.Accept report freq := by
    unfold Settings.Accept at accepts ⊢
    rw [isStandard, ← same]
    exact accepts
  unfold Settings.retuned
  rw [if_pos accepts, if_pos acceptsAgain]
  exact tunedTo_same_iff settings init report freq

/-- A tuner in use shows its own settings, and it is awake. -/
theorem Device.Ordinary.own
    (ordinary : before.Ordinary report)
    (inUse : before.directSampling = 0) :
    before.Plays before.hardware.tuner.report before.hardware.tuner.settings
        0 before.freq ∧
      before.hardware.tuner.settings.initDone = true ∧
        before.hardware.tuner.settings.Awake := by
  rcases ordinary with ⟨settings, sampling, freq, plays, initDone, modes⟩
  have throughTuner : sampling = 0 := plays.directSampling.symm.trans inUse
  have awake : settings.Awake := by
    rcases modes with direct | ⟨_, awake⟩
    · rw [throughTuner] at direct
      cases direct
    · exact awake
  refine ⟨?_, plays.tuner.initDone.trans initDone, ?_⟩
  · exact
      { plays with
        directSampling := inUse
        freq := rfl
        tuner := plays.tuner.own }
  · have vga := plays.tuner.registers 0x0c (by decide)
    exact (congrArg (fun vga => vga &&& 0x60) vga).trans awake

/-- An excursion to shortwave and back, against a tuning to the same frequency. -/
theorem excursion_of_ordinary
    (ordinary : before.Ordinary report)
    (inUse : before.directSampling = 0)
    {low high : UInt32}
    (isLow : low < 24000000)
    (isHigh : 24000000 ≤ high) :
    ∃ after alone,
      run Device.step before [.centerFreq low, .centerFreq high] =
          some after ∧
        run Device.step before [.centerFreq high] = some alone ∧
          (SameSettings after alone ↔
            Survives before.hardware.tuner high) := by
  rcases ordinary.own inUse with ⟨plays, initDone, awake⟩
  rcases setCenterFreqAt_tuned plays isHigh 2 with
    ⟨alone, tunes, alonePlays⟩
  rcases setCenterFreqAt_leaves plays initDone isLow 1 with
    ⟨middle, leaves, middlePlays⟩
  have ranAlone : run Device.step before [.centerFreq high] = some alone :=
    run_cons_of_step (Device.step_eq_some.mpr ⟨_, tunes⟩) rfl
  have ranFirst :
      before.step (.centerFreq low) = some middle :=
    Device.step_eq_some.mpr ⟨_, leaves⟩
  by_cases accepts :
      before.hardware.tuner.settings.Accept before.hardware.tuner.report high
  · rcases setCenterFreqAt_comesBack middlePlays isHigh
      ((standby_accept _ _ _).mpr accepts) 1 with ⟨after, back, afterPlays⟩
    refine ⟨after, alone,
      run_cons_of_step ranFirst
        (run_cons_of_step (Device.step_eq_some.mpr ⟨_, back⟩) rfl),
      ranAlone, ?_⟩
    rw [sameSettings_iff afterPlays.tuner alonePlays.tuner,
      reinitialised_standby accepts, retuned_same_iff rfl accepts]
    constructor
    · rintro ⟨intFreq, lna, others⟩
      exact ⟨accepts, intFreq, lna, others⟩
    · intro survives
      exact ⟨survives.intFreq, survives.lna, survives.others⟩
  · rcases setCenterFreqAt_fallsBack middlePlays isHigh
      (fun accepted => accepts ((standby_accept _ _ _).mp accepted)) 0 with
      ⟨after, back, afterPlays⟩
    refine ⟨after, alone,
      run_cons_of_step ranFirst
        (run_cons_of_step (Device.step_eq_some.mpr ⟨_, back⟩) rfl),
      ranAlone, ?_⟩
    rw [sameSettings_iff afterPlays.tuner alonePlays.tuner]
    constructor
    · rintro ⟨_, same⟩
      -- The tuner has gone back to standby, which shows in its VGA register.
      have awakeAlone := awake.retuned before.hardware.tuner.report high
      unfold Settings.Awake at awakeAlone
      rw [← same 0x0c (by decide)] at awakeAlone
      exact absurd awakeAlone (Settings.standby_not_awake _)
    · intro survives
      exact absurd survives.accepts accepts

end Excursion

/--
After any run of plain setters on an opened R820T that ends with the tuner in
use, an excursion to shortwave and back to a frequency leaves the gain, the
filter and the intermediate frequency that a tuning to that frequency alone
would leave, exactly when the settings survive a new initialisation.
-/
theorem excursion_same_iff
    {opened before : Device Stick}
    (isOpened : Opened opened)
    (isR820t : opened.tunerType = .r820t)
    {setters : List Setter}
    (plain : ∀ setter ∈ setters, setter.Plain)
    (reached : run Device.step opened setters = some before)
    (inUse : before.directSampling = 0)
    {low high : UInt32}
    (isLow : low < 24000000)
    (isHigh : 24000000 ≤ high) :
    ∃ after alone,
      run Device.step before [.centerFreq low, .centerFreq high] =
          some after ∧
        run Device.step before [.centerFreq high] = some alone ∧
          (SameSettings after alone ↔
            Survives before.hardware.tuner high) := by
  rcases run_ordinary isOpened isR820t plain reached with ⟨report, ordinary⟩
  exact excursion_of_ordinary ordinary inUse isLow isHigh

/-- `rtlsdr_open` on an answering stick with an R820T, and one call after it. -/
def openedAndSet (setter : Setter) : Program (Device Stick) Int32 := do
  let answer ← openFound
  let _ ← setter.call
  return answer

/-- What it opens is an opened R820T, and the call runs from it. -/
theorem openedAndSet_runs
    {setter : Setter}
    {final : Device Stick}
    (yields : Yields (openedAndSet setter) foundR820t 0 final) :
    ∃ opened,
      Opened opened ∧
        opened.tunerType = .r820t ∧
          run Device.step opened [setter] = some final := by
  simp only [openedAndSet, yields_bind, yields_pure] at yields
  rcases yields with ⟨_, opened, opens, _, _, calls, rfl, rfl⟩
  have sameType : opened.tunerType = foundR820t.tunerType :=
    congrArg (fun device : Device Unit => device.tunerType)
      (openFound_software opens)
  exact ⟨opened, ⟨.r820t, false, answeringDemod, answeringBus, Or.inl rfl,
    fun _ => rfl, ⟨fun _ => rfl, fun _ => rfl⟩, opens⟩, sameType,
    run_cons_of_step (Device.step_eq_some.mpr ⟨_, calls⟩) rfl⟩

/-- From 100 MHz to 7.1 MHz and back. -/
theorem excursion_same_iff_broadcast :
    ∃ before after alone,
      run Device.step before
            [.centerFreq 7100000, .centerFreq 100000000] =
          some after ∧
        run Device.step before [.centerFreq 100000000] = some alone ∧
          (SameSettings after alone ↔
            Survives before.hardware.tuner 100000000) := by
  have computed :
      ∃ answer final,
        Yields (openedAndSet (.centerFreq 100000000)) foundR820t
            answer final ∧
          (answer, final.directSampling) = (0, 0) :=
    exists_yields (fun answer (final : Device Stick) =>
      (answer, final.directSampling)) (by decide +kernel)
  rcases computed with ⟨answer, before, yields, seen⟩
  rcases Prod.mk.inj seen with ⟨rfl, inUse⟩
  rcases openedAndSet_runs yields with ⟨opened, isOpened, isR820t, reached⟩
  have plain : ∀ setter ∈ [Setter.centerFreq 100000000], setter.Plain := by
    simp [Setter.Plain]
  have isLow : (7100000 : UInt32) < 24000000 := by
    decide
  have isHigh : (24000000 : UInt32) ≤ 100000000 := by
    decide
  exact ⟨before,
    excursion_same_iff isOpened isR820t plain reached inUse isLow isHigh⟩

/--
A gain of 19.7 dB is set; after 7.1 MHz and back to 100 MHz the VGA is set up as by
an initialisation.
-/
theorem excursion_not_same :
    ¬ ∀ opened before setters,
      Opened opened →
      opened.tunerType = .r820t →
      (∀ setter ∈ setters, setter.Plain) →
      run Device.step opened setters = some before →
      before.directSampling = 0 →
      ∀ (low high : UInt32) after alone,
        low < 24000000 →
        24000000 ≤ high →
        run Device.step before [.centerFreq low, .centerFreq high] =
          some after →
        run Device.step before [.centerFreq high] = some alone →
        SameSettings after alone := by
  intro same
  have computed :
      ∃ answer final,
        Yields (openedAndSet (.tunerGain 197)) foundR820t answer final ∧
          (answer, final.directSampling,
              final.hardware.tuner.bus.chip 0x0c) =
            (0, 0, 0x68) :=
    exists_yields
      (fun answer (final : Device Stick) =>
        (answer, final.directSampling, final.hardware.tuner.bus.chip 0x0c))
      (by decide +kernel)
  rcases computed with ⟨answer, before, yields, seen⟩
  simp only [Prod.mk.injEq] at seen
  rcases seen with ⟨rfl, inUse, vga⟩
  rcases openedAndSet_runs yields with ⟨opened, isOpened, isR820t, reached⟩
  have plain : ∀ setter ∈ [Setter.tunerGain 197], setter.Plain := by
    simp [Setter.Plain]
  have isLow : (7100000 : UInt32) < 24000000 := by
    decide
  have isHigh : (24000000 : UInt32) ≤ 100000000 := by
    decide
  rcases run_ordinary isOpened isR820t plain reached with ⟨report, ordinary⟩
  rcases excursion_of_ordinary ordinary inUse isLow isHigh with
    ⟨after, alone, ran, ranAlone, iff⟩
  have survives :=
    iff.mp (same opened before _ isOpened isR820t plain reached inUse
      _ _ after alone isLow isHigh ran ranAlone)
  have standard := survives.others 0x0c (by decide)
  rw [vga, show (excursionInit before.hardware.tuner).registers 0x0c = 0xf0
    from initRegisters_vga _] at standard
  cases standard

end LibRtlSdr.RtlSdr
