import LibRtlSdr.RtlSdrIfRegister

namespace LibRtlSdr.RtlSdr

open DriverProgram PartialRun R82xx

/-!
# When the IF register follows the tuner

Every function that sets the device up keeps the IF register in step with the
tuner, but for two: `rtlsdr_set_freq_correction`, and `rtlsdr_set_xtal_freq` for
a device without a sample rate.  They change the clock that the register is
meant for and tune again, which does not write it.
-/

/-- All that matters of a device: the scripts of its answers and its IF state. -/
def Device.seen (device : Device Stick) :=
  (device.script, device.ifState)

/-- The sample rate does not matter. -/
theorem Device.seen_rate
    (rate : UInt32)
    (device : Device Stick) :
    ({ device with rate := rate } : Device Stick).seen = device.seen :=
  rfl

section Composition

variable {before middle after : Device Stick}

/-- The IF state decides whether the sampling mode fits the frequency. -/
theorem Device.Settled.of_ifState
    (settled : before.Settled)
    (same : after.ifState = before.ifState) :
    after.Settled := by
  have sameMode : after.directSampling = before.directSampling :=
    congrArg IfState.directSampling same
  have sameFreq : after.freq = before.freq :=
    congrArg IfState.freq same
  have sameType : after.tunerType = before.tunerType :=
    congrArg (fun state => state.basis.tunerType) same
  unfold Device.Settled
  rw [sameMode, sameFreq, sameType]
  exact settled

/-- A tuning call may be followed by what does not matter. -/
theorem Retunes.followed
    (retunes : Retunes before middle)
    (same : after.seen = middle.seen) :
    Retunes before after := by
  rcases Prod.mk.inj same with ⟨sameScript, sameState⟩
  have sameMode : after.directSampling = middle.directSampling :=
    congrArg IfState.directSampling sameState
  have sameBasis : after.basis = middle.basis :=
    congrArg IfState.basis sameState
  refine ⟨retunes.responsive.of_script sameScript,
    sameBasis.trans retunes.basis,
    fun manual => sameMode.trans (retunes.manual manual),
    fun automatic known =>
      (retunes.automatic automatic known).of_ifState sameState, ?_⟩
  intro inUse
  rcases retunes.tracked (sameMode.symm.trans inUse) with
    ⟨wasInUse, intFreq, register⟩ | tracked
  · exact Or.inl ⟨wasInUse,
      (congrArg IfState.intFreq sameState).trans intFreq,
      (congrArg IfState.ifRegister sameState).trans register⟩
  · exact Or.inr (tracked.of_ifState sameState)

/-- A tuning call may follow what does not matter. -/
theorem Retunes.preceded
    (same : middle.seen = before.seen)
    (retunes : Retunes middle after) :
    Retunes before after := by
  have sameState : middle.ifState = before.ifState :=
    (Prod.mk.inj same).2
  have sameMode : middle.directSampling = before.directSampling :=
    congrArg IfState.directSampling sameState
  have sameBasis : middle.basis = before.basis :=
    congrArg IfState.basis sameState
  have sameChoice : middle.directSamplingMode = before.directSamplingMode :=
    congrArg Basis.directSamplingMode sameBasis
  refine ⟨retunes.responsive, retunes.basis.trans sameBasis, ?_, ?_, ?_⟩
  · rw [← sameChoice, ← sameMode]
    exact retunes.manual
  · rw [← sameChoice, ← sameMode]
    exact retunes.automatic
  · intro inUse
    rcases retunes.tracked inUse with
      ⟨wasInUse, intFreq, register⟩ | tracked
    · exact Or.inl ⟨sameMode.symm.trans wasInUse,
        intFreq.trans (congrArg IfState.intFreq sameState),
        register.trans (congrArg IfState.ifRegister sameState)⟩
    · exact Or.inr tracked

/-- A call that leaves the IF register in step with the tuner in any case. -/
structure Realigns (before after : Device Stick) : Prop
    extends Retunes before after where
  aligned : after.Tracks

theorem Realigns.followed
    (realigns : Realigns before middle)
    (same : after.seen = middle.seen) :
    Realigns before after := by
  have sameState : after.ifState = middle.ifState :=
    (Prod.mk.inj same).2
  refine ⟨realigns.toRetunes.followed same, fun inUse => ?_⟩
  have wasInUse : middle.directSampling = 0 :=
    (congrArg IfState.directSampling sameState).symm.trans inUse
  exact (realigns.aligned wasInUse).of_ifState sameState

theorem Realigns.preceded
    (same : middle.seen = before.seen)
    (realigns : Realigns middle after) :
    Realigns before after :=
  ⟨realigns.toRetunes.preceded same, realigns.aligned⟩

end Composition

section Functions

variable {before after : Device Stick} {answer : Int32}

theorem demodWriteReg_seen
    {page addr : Nat}
    (apart : page ≠ 1 ∨ addr + 2 ≤ 0x19 ∨ 0x1b < addr)
    (val : UInt16)
    (len : Nat) :
    Keeps Device.seen (demodWriteReg r82xxBoard page addr val len) :=
  (demodWriteReg_script _ _ _ _).both (demodWriteReg_ifState apart _ _)

theorem setI2cRepeater_seen
    (on : Bool) :
    Keeps Device.seen (setI2cRepeater r82xxBoard on) :=
  (setI2cRepeater_script on).both (setI2cRepeater_ifState on)

theorem setSampleFreqCorrection_seen
    (ppm : Int) :
    Keeps Device.seen (setSampleFreqCorrection ppm) := by
  refine Keeps.orAll ?_
  intro operation member
  simp only [List.mem_cons, List.not_mem_nil, or_false] at member
  rcases member with rfl | rfl <;>
    exact demodWriteReg_seen (by decide) _ _

theorem readTunerClock_seen :
    Keeps Device.seen readTunerClock := by
  refine Keeps.get.bind fun device => ?_
  have script :
      ∀ priv : Priv,
        busScript { priv with xtal := device.tunerClock } = busScript priv :=
    fun _ => rfl
  have intFreq :
      ∀ priv : Priv,
        ({ priv with xtal := device.tunerClock } : Priv).intFreq =
          priv.intFreq :=
    fun _ => rfl
  exact (onTuner_script (Keeps.modify script)).both
    (onTuner_ifState (Keeps.modify intFreq))

theorem setGain_seen
    (setManualGain : Bool)
    (gain : Int) :
    Keeps Device.seen
      (onHardware (onTuner (R82xx.setGain setManualGain gain).result)) :=
  (onTuner_script
      (busScript_of_environment (setGain_within _ _).environment)).both
    (onTuner_ifState ((setGain_within _ _).steady.result.comp Prod.snd).keeps)

/-- `r820t_set_bw` writes the IF register for the frequency it has chosen. -/
theorem setBw_realigns
    {bw : Int}
    (responsive : before.Responsive)
    (isR82xx :
      before.tunerType = .r820t ∨ before.tunerType = .r828d)
    (yields : Yields (setBw bw) before answer after) :
    Realigns before after := by
  unfold setBw at yields
  rcases yields_bind.mp yields with ⟨outcome, set, sets, yields⟩
  have script :
      Keeps Device.script (onHardware (onTuner (R82xx.setBandwidth bw).run)) :=
    onTuner_script
      ((setBandwidth_environment bw).comp busScript).keeps
  have setResponsive : set.Responsive := responsive.of_script (script sets)
  have setSoftware : set.software = before.software :=
    onHardware_keeps _ sets
  simp only [onHardware, onTuner, yields_onPart] at sets
  rcases sets with ⟨_, ⟨tuner, returns, rfl⟩, rfl⟩
  rw [setBandwidth_returns responsive.tuner returns] at yields
  rcases yields_bind.mp yields with ⟨encodedAnswer, encoded, encodes, yields⟩
  rcases setIfFreq_encodes setResponsive encodes with
    ⟨rfl, sameTuner, register⟩
  rw [if_neg (by decide)] at yields
  rw [yields_bind_of (yields_get.mpr ⟨rfl, rfl⟩)] at yields
  have encodedResponsive : encoded.Responsive :=
    setResponsive.of_script (setIfFreq_script _ encodes)
  have encodedSoftware : encoded.software = before.software :=
    (setIfFreq_keeps r82xxBoard _ encodes).trans setSoftware
  have encodedBasis : encoded.basis = before.basis :=
    Device.basis_of_software encodedSoftware
  have encodedMode : encoded.directSampling = before.directSampling :=
    congrArg (fun device : Device Unit => device.directSampling)
      encodedSoftware
  have encodedType : encoded.tunerType = before.tunerType :=
    congrArg Basis.tunerType encodedBasis
  have encodedChoice :
      encoded.directSamplingMode = before.directSamplingMode :=
    congrArg Basis.directSamplingMode encodedBasis
  have retunes : Retunes encoded after :=
    setCenterFreqAt_retunes encodedResponsive (encodedType.symm ▸ isR82xx)
      yields
  have encodedTracked : encoded.IfTracked := by
    unfold Device.IfTracked
    rw [register, sameTuner]
    exact congrArg _
      (Device.rtlClock_of_basis encodedBasis).symm
  have aligned : after.Tracks := by
    intro inUse
    rcases retunes.tracked inUse with ⟨_, intFreq, sameRegister⟩ | tracked
    · unfold Device.IfTracked
      rw [sameRegister, intFreq, Device.rtlClock_of_basis retunes.basis]
      exact encodedTracked
    · exact tracked
  refine ⟨⟨retunes.responsive, retunes.basis.trans encodedBasis, ?_, ?_,
    fun inUse => Or.inr (aligned inUse)⟩, aligned⟩
  · rw [← encodedChoice, ← encodedMode]
    exact retunes.manual
  · rw [← encodedChoice, ← encodedMode]
    exact retunes.automatic

theorem setTunerBandwidth_realigns
    {bw : UInt32}
    (responsive : before.Responsive)
    (isR82xx :
      before.tunerType = .r820t ∨ before.tunerType = .r828d)
    (yields : Yields (setTunerBandwidth bw) before answer after) :
    Realigns before after := by
  simp only [setTunerBandwidth, yields_bind, yields_get] at yields
  rcases yields with
    ⟨_, opened, turnedOn, _, _, ⟨rfl, rfl⟩, given, set, sets, _, closed,
      turnedOff, ends⟩
  have openedSame : opened.seen = before.seen :=
    setI2cRepeater_seen true turnedOn
  have openedType : opened.tunerType = before.tunerType :=
    congrArg (fun seen => seen.2.basis.tunerType) openedSame
  have realigns : Realigns opened set :=
    setBw_realigns (responsive.of_script (congrArg Prod.fst openedSame))
      (openedType.symm ▸ isR82xx) sets
  have closedSame : closed.seen = set.seen :=
    setI2cRepeater_seen false turnedOff
  have afterSame : after.seen = closed.seen := by
    split at ends
    · rw [(yields_pure.mp ends).2]
    · simp only [yields_bind, yields_modify, yields_pure] at ends
      rcases ends with ⟨_, _, rfl, _, rfl⟩
      rfl
  exact (realigns.followed (afterSame.trans closedSame)).preceded openedSame

theorem setSampleRate_realigns
    {sampRate : UInt32}
    (responsive : before.Responsive)
    (isR82xx :
      before.tunerType = .r820t ∨ before.tunerType = .r828d)
    (supported : SupportedRate sampRate)
    (yields : Yields (setSampleRate sampRate) before answer after) :
    Realigns before after := by
  unfold setSampleRate at yields
  rw [if_neg (not_not_intro supported)] at yields
  simp only [yields_bind, yields_get, yields_modify] at yields
  rcases yields with
    ⟨_, _, ⟨rfl, rfl⟩, _, _, rfl, _, opened, turnedOn, _, _, ⟨rfl, rfl⟩,
      given, set, sets, _, closed, turnedOff, _, _, ⟨rfl, rfl⟩, writes⟩
  have openedSame : opened.seen = before.seen :=
    (setI2cRepeater_seen true turnedOn).trans (Device.seen_rate _ before)
  have openedType : opened.tunerType = before.tunerType :=
    congrArg (fun seen => seen.2.basis.tunerType) openedSame
  have realigns : Realigns opened set :=
    setBw_realigns (responsive.of_script (congrArg Prod.fst openedSame))
      (openedType.symm ▸ isR82xx) sets
  have closedSame : closed.seen = set.seen :=
    setI2cRepeater_seen false turnedOff
  have afterSame : after.seen = closed.seen := by
    refine Keeps.orAll ?_ writes
    intro operation member
    simp only [List.mem_cons, List.not_mem_nil, or_false] at member
    rcases member with rfl | rfl | rfl | rfl | rfl
    · exact demodWriteReg_seen (by decide) _ _
    · exact demodWriteReg_seen (by decide) _ _
    · exact setSampleFreqCorrection_seen _
    · exact demodWriteReg_seen (by decide) _ _
    · exact demodWriteReg_seen (by decide) _ _
  exact (realigns.followed (afterSame.trans closedSame)).preceded openedSame

/-- A rate that is not supported is refused. -/
theorem setSampleRate_refused
    {sampRate : UInt32}
    (refused : ¬ SupportedRate sampRate)
    (yields : Yields (setSampleRate sampRate) before answer after) :
    before = after := by
  unfold setSampleRate at yields
  rw [if_pos refused] at yields
  exact (yields_pure.mp yields).2

end Functions

/-- What holds of a device between the calls of a program, if every transfer succeeds. -/
structure Device.Sane (device : Device Stick) : Prop where
  responsive : device.Responsive
  isR82xx : device.tunerType = .r820t ∨ device.tunerType = .r828d
  automatic : device.directSamplingMode = 0 → device.Settled
  manual :
    device.directSamplingMode ≠ 0 →
    device.directSampling = device.directSamplingMode

namespace Device.Sane

variable {before middle after : Device Stick} {answer : Int32}

/-- The tuner is in use in automatic mode only. -/
theorem automatic_of_inUse
    (sane : before.Sane)
    (inUse : before.directSampling = 0) :
    before.directSamplingMode = 0 := by
  by_contra manual
  exact manual ((sane.manual manual).symm.trans inUse)

theorem known_of_automatic
    (sane : before.Sane)
    (automatic : before.directSamplingMode = 0) :
    0 ≤ before.directSampling := by
  rcases sane.automatic automatic with ⟨mode, _⟩ | ⟨mode, _⟩
  · exact mode.symm ▸ Int.le_refl 0
  · exact mode.symm ▸ Int.zero_le_ofNat 2

theorem of_seen
    (sane : before.Sane)
    (same : after.seen = before.seen) :
    after.Sane := by
  rcases Prod.mk.inj same with ⟨sameScript, sameState⟩
  have sameMode : after.directSampling = before.directSampling :=
    congrArg IfState.directSampling sameState
  have sameBasis : after.basis = before.basis :=
    congrArg IfState.basis sameState
  have sameType : after.tunerType = before.tunerType :=
    congrArg Basis.tunerType sameBasis
  have sameChoice : after.directSamplingMode = before.directSamplingMode :=
    congrArg Basis.directSamplingMode sameBasis
  refine ⟨sane.responsive.of_script sameScript, ?_, ?_, ?_⟩
  · rw [sameType]
    exact sane.isR82xx
  · rw [sameChoice]
    exact fun automatic => (sane.automatic automatic).of_ifState sameState
  · rw [sameChoice, sameMode]
    exact sane.manual

theorem of_retunes
    (sane : before.Sane)
    (retunes : Retunes before after) :
    after.Sane := by
  have sameType : after.tunerType = before.tunerType :=
    congrArg Basis.tunerType retunes.basis
  have sameChoice : after.directSamplingMode = before.directSamplingMode :=
    congrArg Basis.directSamplingMode retunes.basis
  refine ⟨retunes.responsive, ?_, ?_, ?_⟩
  · rw [sameType]
    exact sane.isR82xx
  · rw [sameChoice]
    exact fun automatic =>
      retunes.automatic automatic (sane.known_of_automatic automatic)
  · rw [sameChoice]
    exact fun manual =>
      (retunes.manual manual).trans (sane.manual manual)

theorem setCenterFreq
    (sane : before.Sane)
    {freq : UInt32}
    (yields : Yields (setCenterFreq r82xxBoard freq) before answer after) :
    Retunes before after :=
  setCenterFreqAt_retunes sane.responsive sane.isR82xx yields

/-- Tuning again to the frequency that is set keeps the tuner in use, and its IF. -/
theorem retune_inUse
    (sane : before.Sane)
    (inUse : before.directSampling = 0)
    {unset : Int32}
    (yields : Yields (retune unset) before answer after) :
    after.directSampling = 0 ∧
      after.hardware.tuner.intFreq = before.hardware.tuner.intFreq ∧
      after.hardware.demod.ifRegister =
        before.hardware.demod.ifRegister := by
  unfold retune at yields
  rw [yields_bind_of (yields_get.mpr ⟨rfl, rfl⟩)] at yields
  have automatic := sane.automatic_of_inUse inUse
  split at yields
  · rename_i isSet
    have settled : before.directSampling = before.samplingFor before.freq := by
      rcases sane.automatic automatic with ⟨_, fits⟩ | ⟨absurdity, _⟩
      · unfold Device.samplingFor
        rw [inUse, if_pos automatic, if_neg]
        rintro ⟨below, isR820t⟩
        rcases fits isR820t with unset | above
        · exact isSet unset
        · exact UInt32.not_lt.mpr above below
      · rw [inUse] at absurdity
        cases absurdity
    rcases setCenterFreqAt_settled rfl
        (sane.known_of_automatic automatic) settled yields with
      ⟨middle, tunes, rfl⟩
    have same := tune_ifState inUse tunes
    exact ⟨(congrArg IfState.directSampling same).trans inUse,
      congrArg IfState.intFreq same, congrArg IfState.ifRegister same⟩
  · rw [← (yields_pure.mp yields).2]
    exact ⟨inUse, rfl, rfl⟩

theorem retune
    (sane : before.Sane)
    {unset : Int32}
    (yields : Yields (retune unset) before answer after) :
    Retunes before after := by
  unfold RtlSdr.retune at yields
  rw [yields_bind_of (yields_get.mpr ⟨rfl, rfl⟩)] at yields
  split at yields
  · exact sane.setCenterFreq yields
  · rw [← (yields_pure.mp yields).2]
    exact ⟨sane.responsive, rfl, fun _ => rfl,
      fun automatic _ => sane.automatic automatic,
      fun inUse => Or.inl ⟨inUse, rfl, rfl⟩⟩

end Device.Sane

/--
The call does not leave the IF register behind.  While the tuner is in use, a new
correction or, without a supported sample rate, a new RTL clock must not change
the encoding of its intermediate frequency.
-/
def KeepsEncoding (device : Device Stick) (setter : Setter) : Prop :=
  device.directSampling = 0 →
    match setter with
    | .freqCorrection ppm =>
        ifEncoding device.hardware.tuner.intFreq
            (applyPpmCorr device.rtlXtal ppm) =
          ifEncoding device.hardware.tuner.intFreq device.rtlClock
    | .xtalFreq rtlFreq _ =>
        ¬ RefusedXtal rtlFreq →
        0 < rtlFreq →
        ¬ SupportedRate device.rate →
        ifEncoding device.hardware.tuner.intFreq
            (applyPpmCorr rtlFreq device.corr) =
          ifEncoding device.hardware.tuner.intFreq device.rtlClock
    | _ => True

section Setters

variable {before moved after : Device Stick} {answer : Int32}

/-- A tuning call keeps the IF register in step. -/
theorem Device.Tracks.of_retunes
    (tracks : before.Tracks)
    (retunes : Retunes before after) :
    after.Tracks := by
  intro inUse
  rcases retunes.tracked inUse with ⟨wasInUse, intFreq, register⟩ | tracked
  · unfold Device.IfTracked
    rw [intFreq, register, Device.rtlClock_of_basis retunes.basis]
    exact tracks wasInUse
  · exact tracked

/-- A tuning call after a change of the clock depends on what the change means. -/
theorem tracks_after_clock_iff
    (tracks : before.Tracks)
    (sameMode : moved.directSampling = before.directSampling)
    (sameTuner : moved.hardware.tuner.intFreq = before.hardware.tuner.intFreq)
    (sameRegister :
      moved.hardware.demod.ifRegister = before.hardware.demod.ifRegister)
    (retunes : Retunes moved after)
    (kept :
      moved.directSampling = 0 →
      after.directSampling = 0 ∧
        after.hardware.tuner.intFreq = moved.hardware.tuner.intFreq ∧
        after.hardware.demod.ifRegister =
          moved.hardware.demod.ifRegister) :
    after.Tracks ↔
      (before.directSampling = 0 →
        ifEncoding before.hardware.tuner.intFreq moved.rtlClock =
          ifEncoding before.hardware.tuner.intFreq before.rtlClock) := by
  by_cases inUse : before.directSampling = 0
  · rcases kept (sameMode.trans inUse) with ⟨stillInUse, intFreq, register⟩
    have tracked : before.hardware.demod.ifRegister =
        ifEncoding before.hardware.tuner.intFreq before.rtlClock :=
      tracks inUse
    have unfolded :
        after.Tracks ↔
          ifEncoding before.hardware.tuner.intFreq before.rtlClock =
            ifEncoding before.hardware.tuner.intFreq moved.rtlClock := by
      unfold Device.Tracks Device.IfTracked
      rw [register, sameRegister, tracked, intFreq, sameTuner,
        Device.rtlClock_of_basis retunes.basis]
      exact ⟨fun follows => follows stillInUse, fun same _ => same⟩
    rw [unfolded]
    exact ⟨fun same _ => same.symm, fun same => (same inUse).symm⟩
  · constructor
    · intro _ wasInUse
      exact absurd wasInUse inUse
    · intro _ nowInUse
      rcases retunes.tracked nowInUse with ⟨wasInUse, _⟩ | tracked
      · exact absurd (sameMode.symm.trans wasInUse) inUse
      · exact tracked

theorem Device.Tracks.of_seen
    (tracks : before.Tracks)
    (same : after.seen = before.seen) :
    after.Tracks := by
  have sameState : after.ifState = before.ifState := (Prod.mk.inj same).2
  intro inUse
  have wasInUse : before.directSampling = 0 :=
    (congrArg IfState.directSampling sameState).symm.trans inUse
  exact (tracks wasInUse).of_ifState sameState

theorem setTunerGain_seen
    (gain : Int) :
    Keeps Device.seen (setTunerGain gain) := by
  have noted :
      ∀ (answer : Int32) (device : Device Stick),
        ({ device with gain := if answer = 0 then gain else 0 } :
          Device Stick).seen = device.seen :=
    fun _ _ => rfl
  exact (setI2cRepeater_seen true).bind fun _ =>
    (setGain_seen _ _).bind fun answer =>
      (Keeps.modify (noted answer)).bind fun _ => Keeps.pure _

theorem setTunerGainMode_seen
    (manual : Bool) :
    Keeps Device.seen (setTunerGainMode manual) :=
  (setI2cRepeater_seen true).bind fun _ => setGain_seen _ _

theorem setDirectSampling_tracks
    (sane : before.Sane)
    {on : Int}
    (yields : Yields (setDirectSampling r82xxBoard on) before answer after) :
    after.Sane ∧ after.Tracks := by
  unfold setDirectSampling at yields
  rcases yields_bind.mp yields with ⟨_, chosen, choice, yields⟩
  have isChosen := yields_modify.mp choice
  subst isChosen
  rcases switchSampling_yields yields with
    ⟨switched, middle, retuned, switches, software, retunes, _⟩
  have chosenResponsive :
      ({ before with directSamplingMode := on } :
        Device Stick).Responsive :=
    sane.responsive.of_script rfl
  have middleResponsive : middle.Responsive :=
    chosenResponsive.of_script
      (Keeps.orAll (switchOperations_script _ _) switches)
  have middleBasis := Device.basis_of_software software
  have middleType : middle.tunerType = before.tunerType :=
    congrArg Basis.tunerType middleBasis
  have middleChoice : middle.directSamplingMode = on :=
    congrArg Basis.directSamplingMode middleBasis
  have later : Retunes (middle.switchedTo on) after :=
    setCenterFreqAt_retunes (middleResponsive.of_script rfl)
      (middleType.symm ▸ sane.isR82xx) retunes
  have afterType : after.tunerType = before.tunerType :=
    (congrArg Basis.tunerType later.basis).trans middleType
  have afterChoice : after.directSamplingMode = on :=
    (congrArg Basis.directSamplingMode later.basis).trans middleChoice
  refine ⟨⟨later.responsive, afterType.symm ▸ sane.isR82xx, ?_, ?_⟩, ?_⟩
  · intro automatic
    have isOff : on = 0 := afterChoice.symm.trans automatic
    exact later.automatic (middleChoice.trans isOff)
      (by rw [isOff]; exact Int.le_refl 0)
  · intro manual
    rw [afterChoice] at manual ⊢
    exact later.manual (fun same => manual (middleChoice.symm.trans same))
  · intro inUse
    rcases later.tracked inUse with ⟨isOff, intFreq, register⟩ | tracked
    · change on = 0 at isOff
      subst isOff
      have middleTracked : middle.IfTracked :=
        switchOperations_track chosenResponsive sane.isR82xx switches
      unfold Device.IfTracked
      rw [intFreq, register, Device.rtlClock_of_basis later.basis]
      exact middleTracked
    · exact tracked

theorem setFreqCorrection_tracks_iff
    (sane : before.Sane)
    {ppm : Int}
    (yields : Yields (setFreqCorrection ppm) before answer after) :
    after.Sane ∧
      (before.Tracks →
        (after.Tracks ↔ KeepsEncoding before (.freqCorrection ppm))) := by
  unfold setFreqCorrection at yields
  rw [yields_bind_of (yields_get.mpr ⟨rfl, rfl⟩)] at yields
  by_cases same : before.corr = ppm
  · rw [if_pos same] at yields
    rw [← (yields_pure.mp yields).2]
    refine ⟨sane, fun tracks => ⟨fun _ _ => ?_, fun _ => tracks⟩⟩
    rw [← same]
    rfl
  rw [if_neg same] at yields
  simp only [yields_bind, yields_modify, yields_pure] at yields
  rcases yields with
    ⟨_, _, rfl, _, written, writes, _, read, reads, _, last, retunes, _, rfl⟩
  have corrected :
      ({ before with corr := ppm } : Device Stick).Sane :=
    ⟨sane.responsive.of_script rfl, sane.isR82xx, sane.automatic,
      sane.manual⟩
  have readSame :
      read.seen = ({ before with corr := ppm } : Device Stick).seen :=
    (readTunerClock_seen reads).trans
      (setSampleFreqCorrection_seen ppm writes)
  have readSane : read.Sane := corrected.of_seen readSame
  have readState := (Prod.mk.inj readSame).2
  refine ⟨readSane.of_retunes (readSane.retune retunes), fun tracks => ?_⟩
  have clock :
      read.rtlClock = applyPpmCorr before.rtlXtal ppm :=
    Device.rtlClock_of_basis (congrArg IfState.basis readState)
  have follows :=
    tracks_after_clock_iff tracks
      (congrArg IfState.directSampling readState)
      (congrArg IfState.intFreq readState)
      (congrArg IfState.ifRegister readState)
      (readSane.retune retunes)
      (fun inUse => readSane.retune_inUse inUse retunes)
  rw [clock] at follows
  exact follows

/-- The device when `rtlsdr_set_xtal_freq` has stored its RTL clock. -/
def Device.clockedBy (device : Device Stick) (rtlFreq : UInt32) : Device Stick :=
  if 0 < rtlFreq then { device with rtlXtal := rtlFreq } else device

theorem setSampleRate_zero : ¬ SupportedRate 0 := by
  decide

/-- A new RTL clock is either followed by a new sample rate or by nothing. -/
theorem setRtlXtal_yields
    {rtlFreq : UInt32}
    (sane : before.Sane)
    (yields : Yields (setRtlXtal rtlFreq) before answer after) :
    (0 < rtlFreq ∧ SupportedRate before.rate ∧
      Realigns { before with rtlXtal := rtlFreq } after) ∨
    ((SupportedRate before.rate → before.rtlXtal = rtlFreq ∨ ¬ 0 < rtlFreq) ∧
      after = before.clockedBy rtlFreq) := by
  unfold setRtlXtal at yields
  rw [yields_bind_of (yields_get.mpr ⟨rfl, rfl⟩)] at yields
  by_cases isNew : 0 < rtlFreq ∧ before.rtlXtal ≠ rtlFreq
  · have clocked :
        before.clockedBy rtlFreq = { before with rtlXtal := rtlFreq } :=
      if_pos isNew.1
    rw [if_pos isNew] at yields
    simp only [yields_bind, yields_modify] at yields
    rcases yields with ⟨_, _, rfl, yields⟩
    by_cases supported : SupportedRate before.rate
    · have known : before.rate ≠ 0 := by
        rintro isZero
        rw [isZero] at supported
        exact setSampleRate_zero supported
      rw [if_pos known] at yields
      exact Or.inl ⟨isNew.1, supported,
        setSampleRate_realigns (sane.responsive.of_script rfl)
          sane.isR82xx supported yields⟩
    · refine Or.inr ⟨fun absurdity => absurd absurdity supported, ?_⟩
      rw [clocked]
      split at yields
      · exact (setSampleRate_refused supported yields).symm
      · exact (yields_pure.mp yields).2.symm
  · rw [if_neg isNew] at yields
    have same : before = after := (yields_pure.mp yields).2
    subst same
    by_cases isSet : 0 < rtlFreq
    · have isOld : before.rtlXtal = rtlFreq := by
        by_contra differs
        exact isNew ⟨isSet, differs⟩
      refine Or.inr ⟨fun _ => Or.inl isOld, ?_⟩
      unfold Device.clockedBy
      rw [if_pos isSet, ← isOld]
    · exact Or.inr ⟨fun _ => Or.inr isSet, (if_neg isSet).symm⟩

/-- Storing a clock leaves a device sane. -/
theorem Device.Sane.clockedBy
    (sane : before.Sane)
    (rtlFreq : UInt32) :
    (before.clockedBy rtlFreq).Sane := by
  unfold Device.clockedBy
  split
  · exact ⟨sane.responsive.of_script rfl, sane.isR82xx, sane.automatic,
      sane.manual⟩
  · exact sane

/-- It changes neither the mode nor the hardware. -/
theorem Device.clockedBy_same
    (device : Device Stick)
    (rtlFreq : UInt32) :
    (device.clockedBy rtlFreq).directSampling = device.directSampling ∧
      (device.clockedBy rtlFreq).hardware = device.hardware := by
  unfold Device.clockedBy
  split <;>
    exact ⟨rfl, rfl⟩

/-- The tuner clock matters as much to the IF register as a new tuning. -/
theorem setTunXtal_retunes
    {tunerFreq : UInt32}
    {earlier : Int32}
    (sane : before.Sane)
    (yields : Yields (setTunXtal tunerFreq earlier) before answer after) :
    Retunes before after ∧
      (before.directSampling = 0 →
        after.directSampling = 0 ∧
          after.hardware.tuner.intFreq = before.hardware.tuner.intFreq ∧
          after.hardware.demod.ifRegister =
            before.hardware.demod.ifRegister) := by
  unfold setTunXtal at yields
  rw [yields_bind_of (yields_get.mpr ⟨rfl, rfl⟩)] at yields
  split at yields
  · simp only [yields_bind, yields_modify] at yields
    rcases yields with ⟨_, stored, isStored, _, read, reads, retunes⟩
    have storedSame : stored.seen = before.seen := by
      rw [← isStored]
      rfl
    have readSame : read.seen = before.seen :=
      (readTunerClock_seen reads).trans storedSame
    have readSane : read.Sane := sane.of_seen readSame
    have readState : read.ifState = before.ifState := (Prod.mk.inj readSame).2
    have sameMode : read.directSampling = before.directSampling :=
      congrArg IfState.directSampling readState
    refine ⟨(readSane.retune retunes).preceded readSame, fun inUse => ?_⟩
    rcases readSane.retune_inUse (sameMode.trans inUse) retunes with
      ⟨stillInUse, intFreq, register⟩
    exact ⟨stillInUse,
      intFreq.trans (congrArg IfState.intFreq readState),
      register.trans (congrArg IfState.ifRegister readState)⟩
  · rw [← (yields_pure.mp yields).2]
    exact ⟨⟨sane.responsive, rfl, fun _ => rfl,
      fun automatic _ => sane.automatic automatic,
      fun inUse => Or.inl ⟨inUse, rfl, rfl⟩⟩, fun inUse => ⟨inUse, rfl, rfl⟩⟩

theorem setXtalFreq_tracks_iff
    (sane : before.Sane)
    {rtlFreq tunerFreq : UInt32}
    (yields :
      Yields (setXtalFreq rtlFreq tunerFreq) before answer after) :
    after.Sane ∧
      (before.Tracks →
        (after.Tracks ↔
          KeepsEncoding before (.xtalFreq rtlFreq tunerFreq))) := by
  unfold setXtalFreq at yields
  by_cases refused : RefusedXtal rtlFreq
  · rw [if_pos refused] at yields
    rw [← (yields_pure.mp yields).2]
    exact ⟨sane, fun tracks =>
      ⟨fun _ _ accepted => absurd refused accepted, fun _ => tracks⟩⟩
  rw [if_neg refused] at yields
  rcases yields_bind.mp yields with ⟨earlier, middle, clocks, later⟩
  rcases setRtlXtal_yields sane clocks with
    ⟨isSet, supported, realigns⟩ | ⟨onlyNew, rfl⟩
  · have storedSane :
        ({ before with rtlXtal := rtlFreq } : Device Stick).Sane :=
      ⟨sane.responsive.of_script rfl, sane.isR82xx, sane.automatic,
        sane.manual⟩
    have middleSane := storedSane.of_retunes realigns.toRetunes
    have retunes := (setTunXtal_retunes middleSane later).1
    refine ⟨middleSane.of_retunes retunes, fun _ => ⟨?_, ?_⟩⟩
    · intro _ _ _ _ unsupported
      exact absurd supported unsupported
    · intro _
      exact realigns.aligned.of_retunes retunes
  · have middleSane := sane.clockedBy rtlFreq
    rcases setTunXtal_retunes middleSane later with ⟨retunes, kept⟩
    rcases before.clockedBy_same rtlFreq with ⟨sameMode, sameHardware⟩
    refine ⟨middleSane.of_retunes retunes, fun tracks => ?_⟩
    rw [tracks_after_clock_iff tracks sameMode
      (congrArg (fun stick => stick.tuner.intFreq) sameHardware)
      (congrArg (fun stick => stick.demod.ifRegister) sameHardware)
      retunes kept]
    have clock :
        0 < rtlFreq →
        (before.clockedBy rtlFreq).rtlClock =
          applyPpmCorr rtlFreq before.corr := by
      intro isSet
      unfold Device.clockedBy
      rw [if_pos isSet]
      rfl
    constructor
    · intro same inUse _ isSet _
      rw [← clock isSet]
      exact same inUse
    · intro same inUse
      by_cases isSet : 0 < rtlFreq
      · rw [clock isSet]
        by_cases supported : SupportedRate before.rate
        · rcases onlyNew supported with isOld | isUnset
          · rw [← isOld]
            rfl
          · exact absurd isSet isUnset
        · exact same inUse refused isSet supported
      · unfold Device.clockedBy
        rw [if_neg isSet]

/-- What a call of the interface does to a device between two calls. -/
theorem step_tracks_iff
    {setter : Setter}
    (sane : before.Sane)
    (yields : Yields setter.call before answer after) :
    after.Sane ∧
      (before.Tracks → (after.Tracks ↔ KeepsEncoding before setter)) := by
  have always :
      ∀ {next : Device Stick},
        (KeepsEncoding before setter) →
        next.Sane →
        (before.Tracks → next.Tracks) →
        next.Sane ∧
          (before.Tracks → (next.Tracks ↔ KeepsEncoding before setter)) :=
    fun meets isSane isTracked =>
      ⟨isSane, fun tracks => ⟨fun _ => meets, fun _ => isTracked tracks⟩⟩
  cases setter with
  | sampleRate sampRate =>
      by_cases supported : SupportedRate sampRate
      · have realigns :=
          setSampleRate_realigns sane.responsive sane.isR82xx supported yields
        exact always (fun _ => trivial)
          (sane.of_retunes realigns.toRetunes) (fun _ => realigns.aligned)
      · rw [← setSampleRate_refused supported yields]
        exact always (fun _ => trivial) sane id
  | tunerBandwidth bw =>
      have realigns :=
        setTunerBandwidth_realigns sane.responsive sane.isR82xx yields
      exact always (fun _ => trivial)
        (sane.of_retunes realigns.toRetunes) (fun _ => realigns.aligned)
  | tunerGain gain =>
      have same := setTunerGain_seen gain yields
      exact always (fun _ => trivial) (sane.of_seen same)
        (fun tracks => tracks.of_seen same)
  | tunerGainMode manual =>
      have same := setTunerGainMode_seen manual yields
      exact always (fun _ => trivial) (sane.of_seen same)
        (fun tracks => tracks.of_seen same)
  | centerFreq freq =>
      have retunes := sane.setCenterFreq yields
      exact always (fun _ => trivial) (sane.of_retunes retunes)
        (fun tracks => tracks.of_retunes retunes)
  | freqCorrection ppm =>
      exact setFreqCorrection_tracks_iff sane yields
  | xtalFreq rtlFreq tunerFreq =>
      exact setXtalFreq_tracks_iff sane yields
  | directSampling on =>
      rcases setDirectSampling_tracks sane yields with ⟨isSane, isTracked⟩
      exact always (fun _ => trivial) isSane (fun _ => isTracked)

/-- A device as it is found, up to its hardware, is sane when its transfers succeed. -/
theorem Device.Sane.of_found
    {tunerType : TunerType}
    {blogV4 : Bool}
    {demod : Demod}
    {bus : Bus}
    {device : Device Stick}
    (isR82xx : tunerType = .r820t ∨ tunerType = .r828d)
    (responsive : device.Responsive)
    (software :
      device.software =
        (foundDevice tunerType blogV4 demod bus).software) :
    device.Sane := by
  have sameMode : device.directSampling = 0 :=
    congrArg (fun found : Device Unit => found.directSampling) software
  have sameType : device.tunerType = tunerType :=
    congrArg (fun found : Device Unit => found.tunerType) software
  have sameFreq : device.freq = 0 :=
    congrArg (fun found : Device Unit => found.freq) software
  have sameChoice : device.directSamplingMode = 0 :=
    congrArg (fun found : Device Unit => found.directSamplingMode) software
  exact ⟨responsive, sameType.symm ▸ isR82xx,
    fun _ => Or.inl ⟨sameMode, fun _ => Or.inl sameFreq⟩,
    fun manual => absurd sameChoice manual⟩

/-- The register writes of `rtlsdr_open` encode the frequency that the tuner will use. -/
theorem openWrites_encode
    (responsive : before.Responsive)
    (yields :
      Yields
        (orAll
          [demodWriteReg r82xxBoard 1 0xb1 0x1a 1,
            demodWriteReg r82xxBoard 0 0x08 0x4d 1,
            setIfFreq r82xxBoard r82xxIfFreq,
            demodWriteReg r82xxBoard 1 0x15 0x01 1])
        before answer after) :
    after.Responsive ∧
      after.software = before.software ∧
      after.hardware.demod.ifRegister =
        ifEncoding r82xxIfFreq after.rtlClock := by
  rcases yields_orAll_cons.mp yields with ⟨_, first, _, wroteFirst, yields, _⟩
  rcases yields_orAll_cons.mp yields with
    ⟨_, second, _, wroteSecond, yields, _⟩
  rcases yields_orAll_cons.mp yields with ⟨_, encoded, _, encodes, yields, _⟩
  rcases yields_orAll_cons.mp yields with ⟨_, third, _, wroteThird, yields, _⟩
  rcases yields_orAll_nil.mp yields with ⟨_, rfl⟩
  have secondResponsive : second.Responsive :=
    (responsive.of_script (demodWriteReg_script _ _ _ _ wroteFirst)).of_script
      (demodWriteReg_script _ _ _ _ wroteSecond)
  have encodedResponsive : encoded.Responsive :=
    secondResponsive.of_script (setIfFreq_script _ encodes)
  have secondSoftware : second.software = before.software :=
    (onHardware_keeps _ wroteSecond).trans (onHardware_keeps _ wroteFirst)
  have encodedSoftware : encoded.software = second.software :=
    setIfFreq_keeps r82xxBoard _ encodes
  have thirdSoftware : third.software = encoded.software :=
    onHardware_keeps _ wroteThird
  have thirdSame : third.ifState = encoded.ifState :=
    demodWriteReg_ifState (by decide) _ _ wroteThird
  refine ⟨encodedResponsive.of_script (demodWriteReg_script _ _ _ _ wroteThird),
    thirdSoftware.trans (encodedSoftware.trans secondSoftware), ?_⟩
  have sameClock : third.rtlClock = second.rtlClock :=
    Device.rtlClock_of_basis
      (Device.basis_of_software (thirdSoftware.trans encodedSoftware))
  rw [sameClock]
  exact (congrArg IfState.ifRegister thirdSame).trans
    (setIfFreq_encodes secondResponsive encodes).2.2

/-- `rtlsdr_open` leaves a tuner in use whose frequency the IF register encodes. -/
theorem Opened.sane_tracks
    {opened : Device Stick}
    (isOpened : Opened opened) :
    opened.Sane ∧ opened.Tracks := by
  rcases isOpened.isOpen with
    ⟨tunerType, blogV4, demod, bus, isR82xx, demodDone, tunerDone, opens⟩
  simp only [openFound, yields_bind, yields_get, yields_pure] at opens
  rcases opens with
    ⟨_, written, writes, _, _, ⟨rfl, rfl⟩, _, initialised, inits, _, closed,
      turnedOff, _, rfl⟩
  have foundResponsive :
      (foundDevice tunerType blogV4 demod bus).Responsive :=
    ⟨demodDone, tunerDone⟩
  rcases openWrites_encode foundResponsive writes with
    ⟨responsive, software, register⟩
  have initialisedResponsive : initialised.Responsive :=
    responsive.of_script (onTuner_script (initTuner_script _) inits)
  have initialisedSoftware : initialised.software = written.software :=
    onHardware_keeps _ inits
  have tracked : initialised.IfTracked := by
    unfold Device.IfTracked
    rw [Device.rtlClock_of_basis
      (Device.basis_of_software initialisedSoftware)]
    simp only [onHardware, onTuner, yields_onPart] at inits
    rcases inits with ⟨_, ⟨tuner, inits, rfl⟩, rfl⟩
    rw [initTuner_intFreq responsive.tuner inits]
    exact register
  have closedSame : closed.seen = initialised.seen :=
    setI2cRepeater_seen false turnedOff
  have sane : initialised.Sane :=
    Device.Sane.of_found isR82xx initialisedResponsive
      (initialisedSoftware.trans software)
  exact ⟨sane.of_seen closedSame,
    Device.Tracks.of_seen (fun _ => tracked) closedSame⟩

end Setters

/--
Through every run of the setters on an opened device, the IF register encodes
the intermediate frequency of the tuner whenever the tuner is in use, exactly
when no call leaves it behind.
-/
theorem ifRegister_follows_iff
    {opened : Device Stick}
    (isOpened : Opened opened)
    (setters : List Setter) :
    EveryState Device.step Device.Tracks opened setters ↔
      EveryStep Device.step KeepsEncoding opened setters := by
  rcases isOpened.sane_tracks with ⟨sane, tracks⟩
  have stepped :
      ∀ {device : Device Stick} {setter : Setter} {next : Device Stick},
        device.Sane →
        device.step setter = some next →
        next.Sane ∧
          (device.Tracks → (next.Tracks ↔ KeepsEncoding device setter)) := by
    intro device setter next isSane taken
    rcases Device.step_eq_some.mp taken with ⟨_, yields⟩
    exact step_tracks_iff isSane yields
  exact everyState_iff_everyStep
    (fun isSane taken => (stepped isSane taken).1)
    (fun isSane isTracked taken => (stepped isSane taken).2 isTracked)
    sane tracks setters

/-- A demodulator that answers. -/
def answeringDemod : Demod where
  registers _ _ := 0
  answers _ := true
  writes := 0

/-- A chip that answers: its PLL locks, and its filter calibrates to 5. -/
def answeringBus : Bus where
  chip _ := 0
  writeAnswers _ := .done
  writes := 0
  readAnswers _ :=
    (.done, fun index => if index = 2 then 0x02 else if index = 4 then 0xa4 else 0)
  reads := 0

/-- `rtlsdr_open` on an answering stick with an R820T, and two calls after it. -/
def openedAndCalled (first second : Setter) : Program (Device Stick) Int32 := do
  let answer ← openFound
  let _ ← first.call
  let _ ← second.call
  return answer

/-- The device of which `openedAndCalled` opens. -/
def foundR820t : Device Stick :=
  foundDevice .r820t false answeringDemod answeringBus

/-- What it opens is an opened device, and the calls run from it. -/
theorem openedAndCalled_runs
    {first second : Setter}
    {final : Device Stick}
    (yields : Yields (openedAndCalled first second) foundR820t 0 final) :
    ∃ opened,
      Opened opened ∧
        run Device.step opened [first, second] = some final := by
  simp only [openedAndCalled, yields_bind, yields_pure] at yields
  rcases yields with
    ⟨_, opened, opens, _, middle, calls, _, _, callsAgain, rfl, rfl⟩
  refine ⟨opened, ⟨.r820t, false, answeringDemod, answeringBus, Or.inl rfl,
    fun _ => rfl, ⟨fun _ => rfl, fun _ => rfl⟩, opens⟩, ?_⟩
  exact run_cons_of_step (Device.step_eq_some.mpr ⟨_, calls⟩)
    (run_cons_of_step (Device.step_eq_some.mpr ⟨_, callsAgain⟩) rfl)

/-- A device is opened, its sample rate and then its bandwidth are set. -/
theorem ifRegister_follows_iff_narrowband :
    ∃ opened,
      Opened opened ∧
        (EveryState Device.step Device.Tracks opened
            [.sampleRate 2048000, .tunerBandwidth 300000] ↔
          EveryStep Device.step KeepsEncoding opened
            [.sampleRate 2048000, .tunerBandwidth 300000]) := by
  have computed :
      ∃ answer final,
        Yields
          (openedAndCalled (.sampleRate 2048000) (.tunerBandwidth 300000))
          foundR820t answer final ∧ answer = 0 :=
    exists_yields (fun answer _ => answer) (by decide +kernel)
  rcases computed with ⟨answer, final, yields, rfl⟩
  rcases openedAndCalled_runs yields with ⟨opened, isOpened, _⟩
  exact ⟨opened, isOpened, ifRegister_follows_iff isOpened _⟩

/--
A correction of 50 ppm after a tuning to 100 MHz: the IF register still encodes
3.57 MHz for the clock that is not corrected.
-/
theorem ifRegister_not_followed :
    ¬ ∀ opened,
      Opened opened →
      ∀ setters,
        EveryState Device.step Device.Tracks opened setters := by
  intro follows
  have computed :
      ∃ answer final,
        Yields
            (openedAndCalled (.centerFreq 100000000) (.freqCorrection 50))
            foundR820t answer final ∧
          (answer, final.directSampling,
              decide (final.hardware.demod.ifRegister =
                ifEncoding final.hardware.tuner.intFreq final.rtlClock)) =
            (0, 0, false) :=
    exists_yields
      (fun answer (final : Device Stick) =>
        (answer, final.directSampling,
          decide (final.hardware.demod.ifRegister =
            ifEncoding final.hardware.tuner.intFreq final.rtlClock)))
      (by decide +kernel)
  rcases computed with ⟨answer, final, yields, seen⟩
  simp only [Prod.mk.injEq, decide_eq_false_iff_not] at seen
  rcases seen with ⟨rfl, inUse, behind⟩
  rcases openedAndCalled_runs yields with ⟨opened, isOpened, reached⟩
  exact behind
    (follows opened isOpened _ _ [] final (List.append_nil _).symm
      reached inUse)

end LibRtlSdr.RtlSdr
