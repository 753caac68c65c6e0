import LibRtlSdr.RtlSdrDevice

namespace LibRtlSdr.RtlSdr

open DriverProgram

/-!
# What a tuning call does

The outcome of `rtlsdr_set_center_freq` in terms of its parts, the fields that
no call into the hardware changes, and how deep the calls nest.
-/

section Frames

variable {Hardware Value : Type} (board : Board Hardware)

/-- A call into the hardware changes none of the fields that the library keeps. -/
theorem onHardware_keeps
    (call : Program Hardware Value) :
    Keeps Device.software (onHardware call) := by
  intro before value after yields
  rcases yields_onPart.mp yields with ⟨hardware, _, rfl⟩
  rfl

theorem setI2cRepeater_keeps
    (on : Bool) :
    Keeps Device.software (setI2cRepeater board on) :=
  (onHardware_keeps _).bind (fun _ => Keeps.pure _)

theorem setIfFreq_keeps
    (freq : UInt32) :
    Keeps Device.software (setIfFreq board freq) := by
  refine Keeps.get.bind (fun device => Keeps.orAll ?_)
  intro operation member
  simp only [List.mem_cons, List.not_mem_nil, or_false] at member
  rcases member with rfl | rfl | rfl <;>
    exact onHardware_keeps _

theorem tunerInit_keeps :
    Keeps Device.software (tunerInit board) := by
  unfold tunerInit
  cases board.tuner.bind TunerInterface.init with
  | none =>
      exact Keeps.pure _
  | some init =>
      exact (setI2cRepeater_keeps board true).bind fun _ =>
        Keeps.get.bind fun _ =>
          (onHardware_keeps _).bind fun _ =>
            (setI2cRepeater_keeps board false).bind fun _ => Keeps.pure _

theorem tunerExit_keeps :
    Keeps Device.software (tunerExit board) := by
  unfold tunerExit
  cases board.tuner.bind TunerInterface.exit with
  | none =>
      exact Keeps.pure _
  | some exit =>
      exact (setI2cRepeater_keeps board true).bind fun _ =>
        (onHardware_keeps _).bind fun _ =>
          (setI2cRepeater_keeps board false).bind fun _ => Keeps.pure _

theorem tune_keeps
    (freq : UInt32) :
    Keeps Device.software (tune board freq) := by
  refine Keeps.get.bind fun device => Keeps.ite ?_ ?_
  · exact (setI2cRepeater_keeps board false).bind fun _ =>
      setIfFreq_keeps board freq
  · cases board.tuner.bind TunerInterface.setFreq with
    | none =>
        exact Keeps.pure _
    | some setFreq =>
        exact (setI2cRepeater_keeps board true).bind fun _ =>
          onHardware_keeps _

/-- What holds of each kind of operation holds of every operation of a switch. -/
theorem switchOperations_forall
    {Holds : Program (Device Hardware) Int32 → Prop}
    (init : Holds (tunerInit board))
    (exit : Holds (tunerExit board))
    (ifFreq : ∀ freq, Holds (setIfFreq board freq))
    (write :
      ∀ page addr val len,
        (page = 1 → addr = 0x15 ∨ addr = 0xb1) →
        Holds (demodWriteReg board page addr val len))
    (tunerType : TunerType)
    (on : Int) :
    ∀ operation ∈ switchOperations board tunerType on, Holds operation := by
  intro operation member
  unfold switchOperations at member
  split at member
  · simp only [enableOperations, List.mem_cons, List.not_mem_nil,
      or_false] at member
    rcases member with rfl | rfl | rfl | rfl | rfl
    · exact exit
    all_goals exact write _ _ _ _ (by decide)
  · unfold disableOperations at member
    split at member <;>
      simp only [List.mem_cons, List.not_mem_nil,
        or_false, List.cons_append, List.nil_append] at member
    · rcases member with rfl | rfl | rfl | rfl
      · exact init
      · exact ifFreq _
      all_goals exact write _ _ _ _ (by decide)
    · rcases member with rfl | rfl | rfl | rfl | rfl
      · exact init
      · exact ifFreq _
      all_goals exact write _ _ _ _ (by decide)

/-- Every operation of a switch leaves the fields that the library keeps alone. -/
theorem switchOperations_keep
    (tunerType : TunerType)
    (on : Int) :
    ∀ operation ∈ switchOperations board tunerType on,
      Keeps Device.software operation :=
  switchOperations_forall board
    (tunerInit_keeps board)
    (tunerExit_keeps board)
    (setIfFreq_keeps board)
    (fun _ _ _ _ _ => onHardware_keeps _)
    tunerType on

end Frames

section Invariants

variable {Hardware : Type}

/--
A property of devices that the parts of a tuning maintain, for frequencies of
some kind; the frequency of a device that has the property is of that kind.
-/
structure TuningInvariant
    (board : Board Hardware)
    (Kind : UInt32 → Prop)
    (Holds : Device Hardware → Prop) : Prop where
  kind : ∀ {device}, Holds device → Kind device.freq
  switchedTo :
    ∀ {device : Device Hardware} on,
      Holds device → Holds (device.switchedTo on)
  tuned :
    ∀ {device : Device Hardware} {freq} answer,
      Kind freq → Holds device → Holds (device.tuned freq answer)
  tune : ∀ {freq}, Kind freq → Maintains Holds (tune board freq)
  operations :
    ∀ tunerType on, ∀ operation ∈ switchOperations board tunerType on,
      Maintains Holds operation

namespace TuningInvariant

variable {board : Board Hardware} {Kind : UInt32 → Prop}
  {Holds : Device Hardware → Prop}

/-- A switch of the sampling mode maintains the property if the tuning behind it does. -/
theorem switchSampling
    (invariant : TuningInvariant board Kind Holds)
    {retune : UInt32 → Program (Device Hardware) Int32}
    (retunes : ∀ freq, Kind freq → Maintains Holds (retune freq))
    (on : Int) :
    Maintains Holds (RtlSdr.switchSampling board retune on) := by
  refine Maintains.getBind fun device _ => ?_
  refine (Maintains.orAll (invariant.operations _ _)).bind fun _ => ?_
  refine (Maintains.modify fun _ => invariant.switchedTo on).bind fun _ => ?_
  refine Maintains.getBind fun later holds => ?_
  exact (retunes _ (invariant.kind holds)).bind fun _ => Maintains.pure _

/-- However deep the calls nest, a tuning maintains the property. -/
theorem setCenterFreqAt
    (invariant : TuningInvariant board Kind Holds)
    (nested : Nat)
    {freq : UInt32}
    (isKind : Kind freq) :
    Maintains Holds (RtlSdr.setCenterFreqAt board nested freq) := by
  induction nested generalizing freq with
  | zero =>
      intro before value after _ yields
      exact absurd yields not_yields_throw
  | succ nested inductionHypothesis =>
      rw [RtlSdr.setCenterFreqAt]
      refine Maintains.getBind fun device holds => ?_
      refine Maintains.ite (fun _ => Maintains.pure _) fun _ => ?_
      refine Maintains.ite (fun _ => Maintains.pure _) fun _ => ?_
      have aims : Maintains Holds (set (device.aimedAt freq)) :=
        Maintains.set (invariant.switchedTo _ holds)
      refine aims.bind fun _ => (invariant.tune isKind).bind fun answer => ?_
      have notes :
          Maintains Holds (modify fun device => device.tuned freq answer) :=
        Maintains.modify fun _ => invariant.tuned answer isKind
      refine notes.bind fun _ => Maintains.getBind fun later _ => ?_
      exact Maintains.ite
        (fun _ =>
          invariant.switchSampling (fun _ => inductionHypothesis) _)
        (fun _ => Maintains.pure _)

end TuningInvariant

/-- What the parts of a tuning leave alone, and the fields it sets do not show, it leaves alone. -/
theorem setCenterFreqAt_frame
    {board : Board Hardware}
    {Observed : Type}
    {observe : Device Hardware → Observed}
    (switchedTo :
      ∀ device on, observe (Device.switchedTo device on) = observe device)
    (tuned :
      ∀ device freq answer,
        observe (Device.tuned device freq answer) = observe device)
    (tune : ∀ freq, Keeps observe (tune board freq))
    (operations :
      ∀ tunerType on, ∀ operation ∈ switchOperations board tunerType on,
        Keeps observe operation)
    (nested : Nat)
    (freq : UInt32) :
    Keeps observe (setCenterFreqAt board nested freq) := by
  apply keeps_iff_maintains.mpr
  intro seen
  have invariant :
      TuningInvariant board (fun _ => True)
        (fun device => observe device = seen) :=
    { kind := fun _ => trivial
      switchedTo := fun on holds => (switchedTo _ on).trans holds
      tuned := fun answer _ holds => (tuned _ _ answer).trans holds
      tune := fun _ => keeps_iff_maintains.mp (tune _) seen
      operations := fun tunerType on operation member =>
        keeps_iff_maintains.mp (operations tunerType on operation member) seen }
  exact invariant.setCenterFreqAt nested trivial

end Invariants

section Outcome

variable {Hardware : Type} {board : Board Hardware}
variable {before after : Device Hardware} {answer : Int32}

@[simp] theorem Device.tuned_software
    (device : Device Hardware)
    (freq : UInt32)
    (answer : Int32) :
    (device.tuned freq answer).software =
      device.software.tuned freq answer :=
  rfl

@[simp] theorem Device.aimedAt_software
    (device : Device Hardware)
    (freq : UInt32) :
    (device.aimedAt freq).software = device.software.aimedAt freq :=
  rfl

@[simp] theorem Device.switchedTo_software
    (device : Device Hardware)
    (on : Int) :
    (device.switchedTo on).software = device.software.switchedTo on :=
  rfl

/-- The sampling mode for a frequency depends on the fields of the library only. -/
theorem Device.samplingFor_software
    (device : Device Hardware)
    (freq : UInt32) :
    device.software.samplingFor freq = device.samplingFor freq :=
  rfl

/-- A known sampling mode is followed by a known one. -/
theorem Device.samplingFor_nonneg
    {device : Device Hardware}
    (known : 0 ≤ device.directSampling)
    (freq : UInt32) :
    0 ≤ device.samplingFor freq := by
  unfold Device.samplingFor
  split
  · split <;> decide
  · exact known

/-- Once chosen for a frequency, the sampling mode stays chosen for it. -/
@[simp] theorem Device.samplingFor_switchedTo
    (device : Device Hardware)
    (freq : UInt32) :
    (device.switchedTo (device.samplingFor freq)).samplingFor freq =
      device.samplingFor freq := by
  unfold Device.switchedTo Device.samplingFor
  by_cases automatic : device.directSamplingMode = 0 <;>
    simp [automatic]

/-- Without a tuner, or in an unknown sampling mode, the call is refused. -/
theorem setCenterFreqAt_refused
    {nested : Nat}
    {freq : UInt32}
    (refused : board.tuner.isNone ∨ before.directSampling < 0)
    (yields :
      Yields (setCenterFreqAt board (nested + 1) freq) before answer after) :
    answer ≠ 0 ∧ before = after := by
  simp only [setCenterFreqAt, yields_bind, yields_get] at yields
  rcases yields with ⟨_, _, ⟨rfl, rfl⟩, yields⟩
  split at yields
  · rcases yields_pure.mp yields with ⟨rfl, same⟩
    exact ⟨by decide, same⟩
  · rename_i hasTuner
    rw [if_pos (refused.resolve_left hasTuner)] at yields
    rcases yields_pure.mp yields with ⟨rfl, same⟩
    exact ⟨by decide, same⟩

/-- A call that is not refused tunes once, and switches if the mode has changed. -/
theorem setCenterFreqAt_yields
    {nested : Nat}
    {freq : UInt32}
    (hasTuner : board.tuner.isNone = false)
    (known : 0 ≤ before.directSampling)
    (yields :
      Yields (setCenterFreqAt board (nested + 1) freq) before answer after) :
    ∃ first middle,
      Yields (tune board freq) (before.aimedAt freq) first middle ∧
        (before.directSampling = before.samplingFor freq →
          first = answer ∧ middle.tuned freq first = after) ∧
        (before.directSampling ≠ before.samplingFor freq →
          Yields
            (switchSampling board (setCenterFreqAt board nested)
              (before.samplingFor freq))
            (middle.tuned freq first) answer after) := by
  simp only [setCenterFreqAt, yields_bind, yields_get] at yields
  rcases yields with ⟨_, _, ⟨rfl, rfl⟩, yields⟩
  rw [if_neg (by simp [hasTuner]), if_neg (by omega)] at yields
  simp only [yields_bind, yields_set, yields_modify, yields_get] at yields
  rcases yields with
    ⟨_, _, rfl, first, middle, tunes, _, _, rfl, _, _, ⟨rfl, rfl⟩, ends⟩
  have sampling :
      (middle.tuned freq first).directSampling = before.samplingFor freq :=
    congrArg Device.directSampling (tune_keeps board freq tunes)
  refine ⟨first, middle, tunes, ?_, ?_⟩
  · intro same
    rw [if_neg (by rw [sampling]; exact not_not_intro same)] at ends
    exact yields_pure.mp ends
  · intro changed
    rw [sampling, if_pos changed] at ends
    exact ends

/-- In the mode that belongs to the frequency, a call is a tuning. -/
theorem setCenterFreqAt_settled
    {nested : Nat}
    {freq : UInt32}
    (hasTuner : board.tuner.isNone = false)
    (known : 0 ≤ before.directSampling)
    (settled : before.directSampling = before.samplingFor freq)
    (yields :
      Yields (setCenterFreqAt board (nested + 1) freq) before answer after) :
    ∃ middle,
      Yields (tune board freq) before answer middle ∧
        middle.tuned freq answer = after := by
  rcases setCenterFreqAt_yields hasTuner known yields with
    ⟨first, middle, tunes, ends, _⟩
  have aimed : before.aimedAt freq = before := by
    unfold Device.aimedAt
    rw [← settled]
    rfl
  rw [aimed] at tunes
  rcases ends settled with ⟨rfl, same⟩
  exact ⟨middle, tunes, same⟩

/-- A switch performs its operations and tunes to the frequency it started with. -/
theorem switchSampling_yields
    {retune : UInt32 → Program (Device Hardware) Int32}
    {on : Int}
    (yields : Yields (switchSampling board retune on) before answer after) :
    ∃ switched middle retuned,
      Yields (orAll (switchOperations board before.tunerType on))
          before switched middle ∧
        middle.software = before.software ∧
        Yields (retune before.freq) (middle.switchedTo on) retuned after ∧
        switched ||| retuned = answer := by
  simp only [switchSampling, yields_bind, yields_get, yields_modify,
    yields_pure] at yields
  rcases yields with
    ⟨_, _, ⟨rfl, rfl⟩, switched, middle, switches, _, _, rfl,
      _, _, ⟨rfl, rfl⟩, retuned, _, retunes, combined, rfl⟩
  have sameSoftware : middle.software = before.software :=
    Keeps.orAll (switchOperations_keep board _ on) switches
  have sameFreq : middle.freq = before.freq :=
    congrArg (fun device : Device Unit => device.freq) sameSoftware
  refine ⟨switched, middle, retuned, switches, sameSoftware, ?_, combined⟩
  rw [← sameFreq]
  exact retunes

end Outcome

section Nesting

variable {Hardware : Type}

/-- The calls into the hardware do not call the library again. -/
structure Board.Flat (board : Board Hardware) : Prop where
  demodWriteReg :
    ∀ page addr val len hardware,
      ¬ TooDeep (board.demodWriteReg page addr val len) hardware
  init :
    ∀ tuner ∈ board.tuner, ∀ init ∈ tuner.init, ∀ context hardware,
      ¬ TooDeep (init context) hardware
  exit :
    ∀ tuner ∈ board.tuner, ∀ exit ∈ tuner.exit, ∀ hardware,
      ¬ TooDeep exit hardware
  setFreq :
    ∀ tuner ∈ board.tuner, ∀ setFreq ∈ tuner.setFreq,
      ∀ context freq hardware, ¬ TooDeep (setFreq context freq) hardware

variable {board : Board Hardware} {device : Device Hardware}

theorem Board.Flat.not_tooDeep_demodWriteReg
    (flat : board.Flat)
    (page addr : Nat)
    (val : UInt16)
    (len : Nat)
    (device : Device Hardware) :
    ¬ TooDeep (RtlSdr.demodWriteReg board page addr val len) device := by
  unfold RtlSdr.demodWriteReg onHardware
  rw [tooDeep_onPart]
  exact flat.demodWriteReg page addr val len device.hardware

theorem Board.Flat.not_tooDeep_setI2cRepeater
    (flat : board.Flat)
    (on : Bool)
    (device : Device Hardware) :
    ¬ TooDeep (setI2cRepeater board on) device := by
  unfold setI2cRepeater
  rw [tooDeep_bind]
  rintro (wrote | ⟨_, _, _, ended⟩)
  · exact flat.not_tooDeep_demodWriteReg _ _ _ _ device wrote
  · exact not_tooDeep_pure ended

theorem Board.Flat.not_tooDeep_setIfFreq
    (flat : board.Flat)
    (freq : UInt32)
    (device : Device Hardware) :
    ¬ TooDeep (setIfFreq board freq) device := by
  unfold setIfFreq
  rw [tooDeep_bind]
  rintro (read | ⟨_, _, _, wrote⟩)
  · exact not_tooDeep_get read
  · refine not_tooDeep_orAll ?_ _ wrote
    intro operation member
    simp only [List.mem_cons, List.not_mem_nil, or_false] at member
    rcases member with rfl | rfl | rfl <;>
      exact flat.not_tooDeep_demodWriteReg _ _ _ _

theorem Board.Flat.not_tooDeep_tunerInit
    (flat : board.Flat)
    (device : Device Hardware) :
    ¬ TooDeep (tunerInit board) device := by
  unfold tunerInit
  cases present : board.tuner.bind TunerInterface.init with
  | none =>
      exact not_tooDeep_pure
  | some init =>
      obtain ⟨tuner, isTuner, isInit⟩ := Option.bind_eq_some_iff.mp present
      have callInit :
          ∀ context device,
            ¬ TooDeep (onHardware (init context)) device := by
        intro context device
        unfold onHardware
        rw [tooDeep_onPart]
        exact flat.init tuner isTuner init isInit context _
      simp only [tooDeep_bind, flat.not_tooDeep_setI2cRepeater, callInit,
        not_tooDeep_get, not_tooDeep_pure, and_false, exists_false,
        or_false, not_false_eq_true]

theorem Board.Flat.not_tooDeep_tunerExit
    (flat : board.Flat)
    (device : Device Hardware) :
    ¬ TooDeep (tunerExit board) device := by
  unfold tunerExit
  cases present : board.tuner.bind TunerInterface.exit with
  | none =>
      exact not_tooDeep_pure
  | some exit =>
      obtain ⟨tuner, isTuner, isExit⟩ := Option.bind_eq_some_iff.mp present
      have callExit :
          ∀ device, ¬ TooDeep (onHardware exit) device := by
        intro device
        unfold onHardware
        rw [tooDeep_onPart]
        exact flat.exit tuner isTuner exit isExit _
      simp only [tooDeep_bind, flat.not_tooDeep_setI2cRepeater, callExit,
        not_tooDeep_pure, and_false, exists_false, or_false,
        not_false_eq_true]

theorem Board.Flat.not_tooDeep_tune
    (flat : board.Flat)
    (freq : UInt32)
    (device : Device Hardware) :
    ¬ TooDeep (tune board freq) device := by
  unfold tune
  rw [tooDeep_bind]
  rintro (read | ⟨_, middle, _, tunes⟩)
  · exact not_tooDeep_get read
  · split at tunes
    · rw [tooDeep_bind] at tunes
      rcases tunes with repeater | ⟨_, _, _, tunes⟩
      · exact flat.not_tooDeep_setI2cRepeater _ _ repeater
      · exact flat.not_tooDeep_setIfFreq _ _ tunes
    · cases present : board.tuner.bind TunerInterface.setFreq with
      | none =>
          rw [present] at tunes
          exact not_tooDeep_pure tunes
      | some setFreq =>
          obtain ⟨tuner, isTuner, isSetFreq⟩ :=
            Option.bind_eq_some_iff.mp present
          rw [present] at tunes
          simp only [tooDeep_bind, flat.not_tooDeep_setI2cRepeater,
            false_or] at tunes
          rcases tunes with ⟨_, _, _, tunes⟩
          unfold onHardware at tunes
          rw [tooDeep_onPart] at tunes
          exact flat.setFreq tuner isTuner setFreq isSetFreq _ _ _ tunes

theorem Board.Flat.not_tooDeep_switchOperations
    (flat : board.Flat)
    (tunerType : TunerType)
    (on : Int) :
    ∀ operation ∈ switchOperations board tunerType on, ∀ device,
      ¬ TooDeep operation device :=
  switchOperations_forall board
    flat.not_tooDeep_tunerInit
    flat.not_tooDeep_tunerExit
    flat.not_tooDeep_setIfFreq
    (fun _ _ _ _ _ => flat.not_tooDeep_demodWriteReg _ _ _ _)
    tunerType on

/--
A call nests too deep only by switching the mode and tuning again too deep: to
the same frequency, or to zero when the first tuning has failed.
-/
theorem setCenterFreqAt_tooDeep
    (flat : board.Flat)
    {nested : Nat}
    {freq : UInt32}
    (deep : TooDeep (setCenterFreqAt board (nested + 1) freq) device) :
    device.directSampling ≠ device.samplingFor freq ∧
      ∃ later : Device Hardware,
        later.directSampling = device.samplingFor freq ∧
          later.directSamplingMode = device.directSamplingMode ∧
          later.tunerType = device.tunerType ∧
          (later.freq = freq ∨ later.freq = 0) ∧
          TooDeep (setCenterFreqAt board nested later.freq) later := by
  unfold setCenterFreqAt at deep
  rw [tooDeep_bind] at deep
  rcases deep with read | ⟨_, _, read, deep⟩
  · exact absurd read not_tooDeep_get
  rcases yields_get.mp read with ⟨rfl, rfl⟩
  split at deep
  · exact absurd deep not_tooDeep_pure
  split at deep
  · exact absurd deep not_tooDeep_pure
  simp only [tooDeep_bind, not_tooDeep_set, not_tooDeep_modify,
    not_tooDeep_get, flat.not_tooDeep_tune, false_or, yields_set,
    yields_modify, yields_get] at deep
  rcases deep with
    ⟨_, _, rfl, first, middle, tunes, _, _, rfl, _, _, ⟨rfl, rfl⟩, deep⟩
  have tuneSoftware :
      (middle.tuned freq first).software =
        ((device.aimedAt freq).tuned freq first).software := by
    rw [Device.tuned_software, Device.tuned_software,
      tune_keeps board freq tunes]
  have sampling :
      (middle.tuned freq first).directSampling = device.samplingFor freq :=
    congrArg (fun device : Device Unit => device.directSampling) tuneSoftware
  rw [sampling] at deep
  split at deep
  · rename_i changed
    refine ⟨changed, ?_⟩
    unfold switchSampling at deep
    simp only [tooDeep_bind, not_tooDeep_get, not_tooDeep_modify,
      not_tooDeep_pure, and_false, exists_false, or_false, false_or,
      not_tooDeep_orAll (flat.not_tooDeep_switchOperations _ _),
      yields_get, yields_modify] at deep
    rcases deep with
      ⟨_, _, ⟨rfl, rfl⟩, switched, last, switches, _, _, rfl,
        _, _, ⟨rfl, rfl⟩, deep⟩
    have sameSoftware :
        last.software = ((device.aimedAt freq).tuned freq first).software :=
      (Keeps.orAll (switchOperations_keep board _ _) switches).trans
        tuneSoftware
    refine ⟨last.switchedTo (device.samplingFor freq), rfl,
      congrArg (fun device : Device Unit => device.directSamplingMode)
        sameSoftware,
      congrArg (fun device : Device Unit => device.tunerType) sameSoftware,
      ?_, deep⟩
    have newFreq : last.freq = if first = 0 then freq else 0 :=
      congrArg (fun device : Device Unit => device.freq) sameSoftware
    by_cases accepted : first = 0
    · exact Or.inl (newFreq.trans (if_pos accepted))
    · exact Or.inr (newFreq.trans (if_neg accepted))
  · exact absurd deep not_tooDeep_pure

/-- No call of `rtlsdr_set_center_freq` nests more than two others. -/
theorem setCenterFreq_not_tooDeep
    (flat : board.Flat)
    (freq : UInt32)
    (device : Device Hardware) :
    ¬ TooDeep (setCenterFreq board freq) device := by
  intro deep
  rcases setCenterFreqAt_tooDeep flat deep with
    ⟨changed, second, sampling, mode, type, freqs, deep⟩
  rcases setCenterFreqAt_tooDeep flat deep with
    ⟨changedAgain, third, samplingThen, modeThen, typeThen, freqsThen, deep⟩
  have changedThen := (setCenterFreqAt_tooDeep flat deep).1
  unfold Device.samplingFor at *
  rw [modeThen, mode, typeThen, type] at *
  by_cases automatic : device.directSamplingMode = 0
  · simp only [automatic, ↓reduceIte] at *
    -- Only a failed tuning of an R820T comes back to direct sampling.
    rcases freqs with same | zero
    · rw [same, sampling] at changedAgain
      exact changedAgain rfl
    · have zeroThen : third.freq = 0 := by
        rcases freqsThen with same | zero
        · rw [same, zero]
        · exact zero
      rw [zeroThen, samplingThen, zero] at changedThen
      exact changedThen rfl
  · simp only [automatic, ↓reduceIte, ne_eq, not_true_eq_false] at changed

end Nesting

end LibRtlSdr.RtlSdr
