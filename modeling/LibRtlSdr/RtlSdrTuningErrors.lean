import LibRtlSdr.RtlSdrCenterFreq

namespace LibRtlSdr.RtlSdr

open DriverProgram

/-!
# Errors of a tuning call

`rtlsdr_set_center_freq` notes a failed tuning by forgetting the frequency, and
when the sampling mode changes it returns what `_rtlsdr_set_direct_sampling`
returns, which tunes again to the frequency noted.  A board that also notes what
its operations answer shows which errors of a call its result reports.
-/

variable {Hardware : Type}

/-- A call that notes its answer. -/
def noting
    (call : Program Hardware Int32) :
    Program (Hardware × List Int32) Int32 := do
  let answer ← onPart Prod.fst (fun hardware noted => (hardware, noted.2)) call
  modify (fun noted => (noted.1, noted.2 ++ [answer]))
  return answer

/-- A tuner whose calls note their answers. -/
def TunerInterface.recording
    (tuner : TunerInterface Hardware) :
    TunerInterface (Hardware × List Int32) where
  init := tuner.init.map (fun init context => noting (init context))
  exit := tuner.exit.map noting
  setFreq :=
    tuner.setFreq.map (fun setFreq context freq => noting (setFreq context freq))

/--
The board with a record of the answers of its operations.  The repeater, which
is set by a function that returns nothing, is left out.
-/
def Board.recording
    (board : Board Hardware) :
    Board (Hardware × List Int32) where
  demodWriteReg page addr val len :=
    if page = 1 ∧ addr = 0x01 then
      onPart Prod.fst (fun hardware noted => (hardware, noted.2))
        (board.demodWriteReg page addr val len)
    else
      noting (board.demodWriteReg page addr val len)
  tuner := board.tuner.map TunerInterface.recording

/-- A device on a recording board, with nothing noted yet. -/
def Device.recorded
    (device : Device Hardware) :
    Device (Hardware × List Int32) :=
  { device with hardware := (device.hardware, []) }

/-- The answers noted so far. -/
def Device.answers
    (device : Device (Hardware × List Int32)) :
    List Int32 :=
  device.hardware.2

/-- The operations answer zero, one after the other. -/
def AllSucceed
    {State : Type} :
    List (Program State Int32) → State → Prop
  | [], _ => True
  | operation :: rest, state =>
      ∃ after, Yields operation state 0 after ∧ AllSucceed rest after

/-- Perform an operation and drop its answer. -/
def dropping
    {State : Type}
    (operation : Program State Int32) :
    Program State Int32 := do
  let _ ← operation
  return 0

/--
The operations that follow a failed tuning whose call switches the mode: those
of the switch, and a tuning to zero.  In automatic mode that tuning may switch
again, and its own answer is then dropped as well.
-/
def recovery
    (board : Board Hardware)
    (device : Device Hardware) :
    List (Program (Device Hardware) Int32) :=
  switchOperations board device.tunerType device.directSampling ++
    (if device.directSampling = device.samplingFor 0 then
      [tune board 0]
    else
      dropping
          (do
            modify (fun device => device.aimedAt 0)
            tune board 0) ::
        (switchOperations board device.tunerType (device.samplingFor 0) ++
          [tune board 0]))

/-- The call changes the sampling mode. -/
def Switches
    (board : Board Hardware)
    (device : Device Hardware)
    (freq : UInt32) : Prop :=
  board.tuner.isNone = false ∧
    0 ≤ device.directSampling ∧
    device.directSampling ≠ device.samplingFor freq

/--
The call switches the sampling mode, its first tuning fails, and every operation
after that succeeds, except perhaps a tuning that is followed by another switch.
-/
def LosesError
    (board : Board Hardware)
    (device : Device Hardware)
    (freq : UInt32) : Prop :=
  Switches board device freq ∧
    ∃ first middle,
      Yields (tune board freq) (device.aimedAt freq) first middle ∧
        first ≠ 0 ∧
        AllSucceed (recovery board (middle.tuned freq first))
          (middle.tuned freq first)

/--
What a result of zero stands for: the frequency is set, in the sampling mode
that belongs to it, and no operation of the call has answered an error.
-/
structure Reported
    (freq : UInt32)
    (after : Device (Hardware × List Int32)) : Prop where
  tunedTo : after.freq = freq
  sampling :
    after.directSamplingMode = 0 →
    after.tunerType = .r820t →
    after.directSampling = if freq < 24000000 then 2 else 0
  noErrors : ∀ answer ∈ after.answers, answer = 0

section Noting

/-- The answers of the program's operations are noted, and it reports their errors. -/
def Notes
    (program : Program (Device (Hardware × List Int32)) Int32) : Prop :=
  ∀ ⦃before answer after⦄,
    Yields program before answer after →
    ∃ noted,
      after.answers = before.answers ++ noted ∧
        (answer = 0 ↔ ∀ other ∈ noted, other = 0)

variable {board : Board Hardware}

theorem noting_notes
    (call : Program Hardware Int32) :
    Notes (onHardware (noting call)) := by
  intro before answer after yields
  simp only [onHardware, noting, yields_onPart, yields_bind, yields_modify,
    yields_pure] at yields
  rcases yields with
    ⟨_, ⟨given, _, ⟨hardware, _, rfl⟩, _, _, rfl, rfl, rfl⟩, rfl⟩
  exact ⟨[given], rfl, by simp⟩

theorem demodWriteReg_notes
    (page addr : Nat)
    (val : UInt16)
    (len : Nat)
    (checked : ¬ (page = 1 ∧ addr = 0x01)) :
    Notes (demodWriteReg board.recording page addr val len) := by
  unfold demodWriteReg Board.recording
  simp only [if_neg checked]
  exact noting_notes _

/-- Setting the repeater notes nothing. -/
theorem setI2cRepeater_answers
    {on : Bool}
    {before after : Device (Hardware × List Int32)}
    {nothing : Unit}
    (yields : Yields (setI2cRepeater board.recording on) before nothing after) :
    after.answers = before.answers := by
  simp only [setI2cRepeater, demodWriteReg, onHardware, Board.recording,
    and_self, ↓reduceIte, yields_bind, yields_onPart, yields_pure] at yields
  rcases yields with ⟨_, _, ⟨_, ⟨hardware, _, rfl⟩, rfl⟩, _, rfl⟩
  rfl

theorem orAll_notes
    {operations : List (Program (Device (Hardware × List Int32)) Int32)}
    (each : ∀ operation ∈ operations, Notes operation) :
    Notes (orAll operations) := by
  induction operations with
  | nil =>
      intro before answer after yields
      rcases yields_orAll_nil.mp yields with ⟨rfl, rfl⟩
      exact ⟨[], by simp, by simp⟩
  | cons operation rest inductionHypothesis =>
      have head := each operation List.mem_cons_self
      have tail :=
        inductionHypothesis
          (fun other member => each other (List.mem_cons_of_mem _ member))
      intro before answer after yields
      rcases yields_orAll_cons.mp yields with
        ⟨first, middle, others, ran, ranRest, combined⟩
      rcases head ran with ⟨noted, grown, reported⟩
      rcases tail ranRest with ⟨later, grownAgain, reportedRest⟩
      refine ⟨noted ++ later, ?_, ?_⟩
      · rw [grownAgain, grown, List.append_assoc]
      · rw [← combined, or_eq_zero, reported, reportedRest,
          List.forall_mem_append]

theorem setIfFreq_notes
    (freq : UInt32) :
    Notes (setIfFreq board.recording freq) := by
  intro before answer after yields
  unfold setIfFreq at yields
  rw [yields_bind] at yields
  rcases yields with ⟨_, _, read, wrote⟩
  rcases yields_get.mp read with ⟨rfl, rfl⟩
  refine orAll_notes ?_ wrote
  intro operation member
  simp only [List.mem_cons, List.not_mem_nil, or_false] at member
  rcases member with rfl | rfl | rfl <;>
    exact demodWriteReg_notes _ _ _ _ (by decide)

theorem tunerInit_notes :
    Notes (tunerInit board.recording) := by
  intro before answer after yields
  unfold tunerInit at yields
  cases present : board.recording.tuner.bind TunerInterface.init with
  | none =>
      rw [present] at yields
      rcases yields_pure.mp yields with ⟨rfl, rfl⟩
      exact ⟨[], by simp, by simp⟩
  | some init =>
      rw [present] at yields
      simp only [yields_bind, yields_get, yields_pure] at yields
      rcases yields with
        ⟨_, opened, turnedOn, _, _, ⟨rfl, rfl⟩, given, middle, called,
          _, closed, turnedOff, rfl, rfl⟩
      have isNoting :
          ∃ call, init opened.context = noting call := by
        simp only [Board.recording, Option.bind_map, Function.comp_def,
          TunerInterface.recording, Option.bind_eq_some_iff,
          Option.map_eq_some_iff] at present
        rcases present with ⟨_, _, original, _, rfl⟩
        exact ⟨_, rfl⟩
      rcases isNoting with ⟨call, isCall⟩
      rw [isCall] at called
      rcases noting_notes call called with ⟨noted, grown, reported⟩
      refine ⟨noted, ?_, reported⟩
      rw [setI2cRepeater_answers turnedOff, grown,
        setI2cRepeater_answers turnedOn]

theorem tunerExit_notes :
    Notes (tunerExit board.recording) := by
  intro before answer after yields
  unfold tunerExit at yields
  cases present : board.recording.tuner.bind TunerInterface.exit with
  | none =>
      rw [present] at yields
      rcases yields_pure.mp yields with ⟨rfl, rfl⟩
      exact ⟨[], by simp, by simp⟩
  | some exit =>
      rw [present] at yields
      simp only [yields_bind, yields_pure] at yields
      rcases yields with
        ⟨_, opened, turnedOn, given, middle, called, _, closed, turnedOff,
          rfl, rfl⟩
      have isNoting : ∃ call, exit = noting call := by
        simp only [Board.recording, Option.bind_map, Function.comp_def,
          TunerInterface.recording, Option.bind_eq_some_iff,
          Option.map_eq_some_iff] at present
        rcases present with ⟨_, _, original, _, rfl⟩
        exact ⟨_, rfl⟩
      rcases isNoting with ⟨call, rfl⟩
      rcases noting_notes call called with ⟨noted, grown, reported⟩
      refine ⟨noted, ?_, reported⟩
      rw [setI2cRepeater_answers turnedOff, grown,
        setI2cRepeater_answers turnedOn]

/-- Every operation of a switch notes its answers. -/
theorem switchOperations_note
    (tunerType : TunerType)
    (on : Int) :
    ∀ operation ∈ switchOperations board.recording tunerType on,
      Notes operation :=
  switchOperations_forall board.recording
    tunerInit_notes
    tunerExit_notes
    setIfFreq_notes
    (fun page addr val len within =>
      demodWriteReg_notes page addr val len
        (by
          rintro ⟨samePage, repeater⟩
          rcases within samePage with other | other <;> omega))
    tunerType on

/-- A tuning notes its answers, unless the tuner has no function for it. -/
theorem tune_notes
    {freq : UInt32}
    {before after : Device (Hardware × List Int32)}
    {answer : Int32}
    (yields : Yields (tune board.recording freq) before answer after) :
    (∃ noted,
      after.answers = before.answers ++ noted ∧
        (answer = 0 ↔ ∀ other ∈ noted, other = 0)) ∨
    (before.directSampling = 0 ∧
      board.recording.tuner.bind TunerInterface.setFreq = none ∧
      answer = -1 ∧ after = before) := by
  unfold tune at yields
  rw [yields_bind] at yields
  rcases yields with ⟨_, _, read, tunes⟩
  rcases yields_get.mp read with ⟨rfl, rfl⟩
  split at tunes
  · rw [yields_bind] at tunes
    rcases tunes with ⟨_, opened, turnedOff, tunes⟩
    rcases setIfFreq_notes freq tunes with ⟨noted, grown, reported⟩
    refine Or.inl ⟨noted, ?_, reported⟩
    rw [grown, setI2cRepeater_answers turnedOff]
  · rename_i throughTuner
    cases present : board.recording.tuner.bind TunerInterface.setFreq with
    | none =>
        rw [present] at tunes
        rcases yields_pure.mp tunes with ⟨rfl, rfl⟩
        exact Or.inr ⟨not_not.mp throughTuner, rfl, rfl, rfl⟩
    | some setFreq =>
        rw [present] at tunes
        simp only [yields_bind] at tunes
        rcases tunes with ⟨_, opened, turnedOn, tunes⟩
        have isNoting :
            ∀ context freq, ∃ call, setFreq context freq = noting call := by
          simp only [Board.recording, Option.bind_map, Function.comp_def,
            TunerInterface.recording, Option.bind_eq_some_iff,
            Option.map_eq_some_iff] at present
          rcases present with ⟨_, _, original, _, rfl⟩
          intro context freq
          exact ⟨_, rfl⟩
        rcases isNoting before.context (freq - before.offsFreq) with
          ⟨call, isCall⟩
        rw [isCall] at tunes
        rcases noting_notes call tunes with ⟨noted, grown, reported⟩
        refine Or.inl ⟨noted, ?_, reported⟩
        rw [grown, setI2cRepeater_answers turnedOn]

/-- A tuner that has no function for it cannot be tuned. -/
theorem tune_without
    {freq : UInt32}
    {before after : Device (Hardware × List Int32)}
    {answer : Int32}
    (throughTuner : before.directSampling = 0)
    (cannotTune :
      board.recording.tuner.bind TunerInterface.setFreq = none)
    (yields : Yields (tune board.recording freq) before answer after) :
    answer = -1 := by
  unfold tune at yields
  rw [yields_bind] at yields
  rcases yields with ⟨_, _, read, tunes⟩
  rcases yields_get.mp read with ⟨rfl, rfl⟩
  rw [if_neg (not_not_intro throughTuner), cannotTune] at tunes
  exact (yields_pure.mp tunes).1.symm

/-- What a tuning has noted stays noted. -/
theorem tune_grows
    {freq : UInt32}
    {before after : Device (Hardware × List Int32)}
    {answer : Int32}
    (yields : Yields (tune board.recording freq) before answer after) :
    before.answers <+: after.answers := by
  rcases tune_notes yields with ⟨noted, grown, _⟩ | ⟨_, _, _, rfl⟩
  · exact ⟨noted, grown.symm⟩
  · exact List.prefix_refl _

/-- What has been noted stays noted while the mode is switched. -/
theorem switchSampling_grows
    {nested : Nat}
    {on : Int}
    {before after : Device (Hardware × List Int32)}
    {answer : Int32}
    (yields :
      Yields
        (switchSampling board.recording
          (setCenterFreqAt board.recording nested) on)
        before answer after) :
    before.answers <+: after.answers := by
  induction nested generalizing on before answer after with
  | zero =>
      rcases switchSampling_yields yields with
        ⟨_, _, _, _, _, retunes, _⟩
      exact absurd retunes not_yields_throw
  | succ nested inductionHypothesis =>
      rcases switchSampling_yields yields with
        ⟨switched, middle, retuned, switches, _, retunes, _⟩
      rcases orAll_notes (switchOperations_note _ _) switches with
        ⟨noted, grown, _⟩
      refine List.IsPrefix.trans ⟨noted, grown.symm⟩ ?_
      by_cases refused :
          board.recording.tuner.isNone ∨
            (middle.switchedTo on).directSampling < 0
      · rw [← (setCenterFreqAt_refused refused retunes).2]
        exact List.prefix_refl _
      · rcases not_or.mp refused with ⟨hasTuner, known⟩
        rcases setCenterFreqAt_yields ((Bool.not_eq_true _).mp hasTuner)
            (Int.not_lt.mp known) retunes with
          ⟨first, next, tunes, settled, changed⟩
        have grownFirst := tune_grows tunes
        change middle.answers <+: next.answers at grownFirst
        refine grownFirst.trans ?_
        by_cases same :
            (middle.switchedTo on).directSampling =
              (middle.switchedTo on).samplingFor before.freq
        · rw [← (settled same).2]
          exact List.prefix_refl _
        · have grownLater := inductionHypothesis (changed same)
          exact grownLater

end Noting

section Recovery

variable {State : Type} {board : Board Hardware}

/-- Operations whose outcome is known succeed when their combined answer is zero. -/
theorem allSucceed_append_iff
    {operations rest : List (Program State Int32)}
    {before middle : State}
    {answer : Int32}
    (ran : Yields (orAll operations) before answer middle) :
    AllSucceed (operations ++ rest) before ↔
      answer = 0 ∧ AllSucceed rest middle := by
  induction operations generalizing before answer with
  | nil =>
      rcases yields_orAll_nil.mp ran with ⟨rfl, rfl⟩
      simp
  | cons operation others inductionHypothesis =>
      rcases yields_orAll_cons.mp ran with
        ⟨first, next, remaining, ranFirst, ranOthers, combined⟩
      rw [← combined, or_eq_zero, and_assoc,
        ← inductionHypothesis ranOthers, List.cons_append]
      constructor
      · rintro ⟨after, succeeds, later⟩
        rcases ranFirst.functional succeeds with ⟨rfl, rfl⟩
        exact ⟨rfl, later⟩
      · rintro ⟨rfl, later⟩
        exact ⟨next, ranFirst, later⟩

/-- A single operation succeeds when it answers zero. -/
theorem allSucceed_singleton_iff
    {operation : Program State Int32}
    {before after : State}
    {answer : Int32}
    (ran : Yields operation before answer after) :
    AllSucceed [operation] before ↔ answer = 0 := by
  constructor
  · rintro ⟨other, succeeds, _⟩
    exact (ran.functional succeeds).1
  · rintro rfl
    exact ⟨after, ran, trivial⟩

/-- An operation whose answer is dropped counts as a success. -/
theorem allSucceed_dropping_iff
    {operation : Program State Int32}
    {rest : List (Program State Int32)}
    {before after : State}
    {answer : Int32}
    (ran : Yields operation before answer after) :
    AllSucceed (dropping operation :: rest) before ↔
      AllSucceed rest after := by
  have drops : Yields (dropping operation) before 0 after := by
    unfold dropping
    rw [yields_bind]
    exact ⟨answer, after, ran, yields_pure.mpr ⟨rfl, rfl⟩⟩
  constructor
  · rintro ⟨other, succeeds, later⟩
    rcases drops.functional succeeds with ⟨_, rfl⟩
    exact later
  · intro later
    exact ⟨after, drops, later⟩

/--
After a failed tuning a switch answers zero exactly when the operations that
follow succeed, and the frequency stays forgotten.
-/
theorem switchSampling_recovers_iff
    {failed after : Device Hardware}
    {answer : Int32}
    (hasTuner : board.tuner.isNone = false)
    (known : 0 ≤ failed.directSampling)
    (forgotten : failed.freq = 0)
    (yields :
      Yields
        (switchSampling board (setCenterFreqAt board 2)
          failed.directSampling)
        failed answer after) :
    after.freq = 0 ∧
      (answer = 0 ↔ AllSucceed (recovery board failed) failed) := by
  rcases switchSampling_yields yields with
    ⟨switched, middle, retuned, switches, software, retunes, combined⟩
  have sameFreq : middle.freq = failed.freq :=
    congrArg (fun device : Device Unit => device.freq) software
  have sameMode : middle.directSampling = failed.directSampling :=
    congrArg (fun device : Device Unit => device.directSampling) software
  have sameType : middle.tunerType = failed.tunerType :=
    congrArg (fun device : Device Unit => device.tunerType) software
  have sameSampling : middle.samplingFor 0 = failed.samplingFor 0 := by
    rw [← middle.samplingFor_software, software,
      failed.samplingFor_software]
  have inMode : middle.switchedTo failed.directSampling = middle := by
    rw [← sameMode]
    rfl
  rw [inMode, forgotten] at retunes
  rw [← combined, or_eq_zero]
  unfold recovery
  rw [allSucceed_append_iff switches]
  rcases setCenterFreqAt_yields hasTuner (sameMode ▸ known) retunes with
    ⟨first, next, tunes, settledEnd, changedEnd⟩
  rw [sameMode, sameSampling] at settledEnd changedEnd
  by_cases settled : failed.directSampling = failed.samplingFor 0
  · rcases settledEnd settled with ⟨rfl, rfl⟩
    have aimed : middle.aimedAt 0 = middle := by
      unfold Device.aimedAt
      rw [sameSampling, ← settled]
      exact inMode
    rw [aimed] at tunes
    rw [if_pos settled, allSucceed_singleton_iff tunes]
    exact ⟨ite_self _, Iff.rfl⟩
  · have tunesAgain :
        Yields
          (do
            modify (fun device : Device Hardware => device.aimedAt 0)
            tune board 0)
          middle first next := by
      rw [yields_bind]
      exact ⟨⟨⟩, _, yields_modify.mpr rfl, tunes⟩
    have nextSoftware : next.software = (middle.aimedAt 0).software :=
      tune_keeps board 0 tunes
    have nextFreq : next.freq = 0 :=
      (congrArg (fun device : Device Unit => device.freq)
        nextSoftware).trans (sameFreq.trans forgotten)
    have nextMode : next.directSampling = failed.samplingFor 0 :=
      (congrArg (fun device : Device Unit => device.directSampling)
        nextSoftware).trans sameSampling
    have nextType : next.tunerType = failed.tunerType :=
      (congrArg (fun device : Device Unit => device.tunerType)
        nextSoftware).trans sameType
    have nextSampling : next.samplingFor 0 = failed.samplingFor 0 := by
      rw [← next.samplingFor_software, nextSoftware,
        Device.samplingFor_software]
      exact (middle.samplingFor_switchedTo 0).trans sameSampling
    have untouched : next.tuned 0 first = next := by
      unfold Device.tuned
      rw [ite_self, ← nextFreq]
    have switchesBack := changedEnd settled
    rw [untouched] at switchesBack
    rcases switchSampling_yields switchesBack with
      ⟨switchedBack, last, answerLast, switchesLast, softwareLast,
        retunesLast, combinedLast⟩
    have lastSampling : last.samplingFor 0 = failed.samplingFor 0 := by
      rw [← last.samplingFor_software, softwareLast,
        Device.samplingFor_software]
      exact nextSampling
    have lastMode : last.directSampling = failed.samplingFor 0 :=
      (congrArg (fun device : Device Unit => device.directSampling)
        softwareLast).trans nextMode
    have inLastMode : last.switchedTo (failed.samplingFor 0) = last := by
      rw [← lastMode]
      rfl
    rw [inLastMode, nextFreq] at retunesLast
    rcases setCenterFreqAt_settled hasTuner
        (lastMode ▸ failed.samplingFor_nonneg known 0)
        (lastMode.trans lastSampling.symm) retunesLast with
      ⟨end_, tunesLast, rfl⟩
    rw [nextType] at switchesLast
    rw [if_neg settled, allSucceed_dropping_iff tunesAgain,
      allSucceed_append_iff switchesLast,
      allSucceed_singleton_iff tunesLast, ← combinedLast, or_eq_zero]
    exact ⟨ite_self _, Iff.rfl⟩

end Recovery

/-- A call that stays in its mode reports what its tuning answers. -/
theorem setCenterFreqAt_settled_reported
    {board : Board Hardware}
    {nested : Nat}
    {freq : UInt32}
    {before after : Device (Hardware × List Int32)}
    {answer : Int32}
    (hasTuner : board.recording.tuner.isNone = false)
    (known : 0 ≤ before.directSampling)
    (settled : before.directSampling = before.samplingFor freq)
    (noErrors : ∀ answer ∈ before.answers, answer = 0)
    (yields :
      Yields (setCenterFreqAt board.recording (nested + 1) freq)
        before answer after)
    (accepted : answer = 0) :
    Reported freq after := by
  rcases setCenterFreqAt_settled hasTuner known settled yields with
    ⟨middle, tunes, rfl⟩
  have software : middle.software = before.software :=
    tune_keeps board.recording freq tunes
  have sameMode : middle.directSampling = before.directSampling :=
    congrArg (fun device : Device Unit => device.directSampling) software
  have sameSampling : middle.samplingFor freq = before.samplingFor freq := by
    rw [← middle.samplingFor_software, software,
      before.samplingFor_software]
  refine ⟨if_pos accepted, ?_, ?_⟩
  · intro automatic isR820t
    change middle.directSampling = _
    rw [sameMode, settled, ← sameSampling]
    change middle.directSamplingMode = 0 at automatic
    change middle.tunerType = .r820t at isR820t
    simp [Device.samplingFor, automatic, isR820t]
  · intro other member
    rcases tune_notes tunes with ⟨noted, grown, reported⟩ | ⟨_, _, refused, _⟩
    · change other ∈ middle.answers at member
      rw [grown, List.mem_append] at member
      rcases member with earlier | later
      · exact noErrors other earlier
      · exact reported.mp accepted other later
    · rw [accepted] at refused
      exact absurd refused (by decide)

section Switching

variable {board : Board Hardware} {device : Device Hardware}
  {freq : UInt32} {first : Int32}
  {middle after : Device (Hardware × List Int32)}

/-- A tuning leaves the device in the mode that it was aimed at. -/
theorem aimed_directSampling
    (tunes :
      Yields (tune board.recording freq) (device.recorded.aimedAt freq)
        first middle) :
    (middle.tuned freq first).directSampling =
      device.recorded.samplingFor freq :=
  congrArg (fun device : Device Unit => device.directSampling)
    (tune_keeps board.recording freq tunes)

/-- A switch behind a tuning does not change which mode belongs to a frequency. -/
theorem switched_samplingFor
    (tunes :
      Yields (tune board.recording freq) (device.recorded.aimedAt freq)
        first middle)
    {last : Device (Hardware × List Int32)}
    (lastSoftware :
      last.software = (middle.tuned freq first).software) :
    last.samplingFor freq = device.recorded.samplingFor freq := by
  rw [← last.samplingFor_software, lastSoftware, Device.tuned_software,
    tune_keeps board.recording freq tunes]
  exact device.recorded.samplingFor_switchedTo freq

/-- When the first tuning succeeds, every answer but its own zero is kept. -/
theorem reported_of_switched
    (hasTuner : board.recording.tuner.isNone = false)
    (known : 0 ≤ device.recorded.directSampling)
    (tunes :
      Yields (tune board.recording freq) (device.recorded.aimedAt freq)
        0 middle)
    (switches :
      Yields
        (switchSampling board.recording (setCenterFreqAt board.recording 2)
          (device.recorded.samplingFor freq))
        (middle.tuned freq 0) 0 after) :
    Reported freq after := by
  rcases switchSampling_yields switches with
    ⟨switched, last, retuned, performed, lastSoftware, retunes, combined⟩
  rcases or_eq_zero.mp combined with ⟨switchedZero, retunedZero⟩
  have lastSampling := switched_samplingFor tunes lastSoftware
  refine setCenterFreqAt_settled_reported hasTuner
    (device.recorded.samplingFor_nonneg known freq) ?_ ?_ retunes
    retunedZero
  · rw [← lastSampling]
    exact (last.samplingFor_switchedTo freq).symm
  · intro other member
    change other ∈ last.answers at member
    rcases orAll_notes (switchOperations_note _ _) performed with
      ⟨later, grown, reportedLater⟩
    rw [grown, List.mem_append] at member
    rcases member with earlier | inLater
    · rcases tune_notes tunes with
        ⟨noted, grownFirst, reported⟩ | ⟨_, _, absurdity, _⟩
      · change other ∈ middle.answers at earlier
        rw [grownFirst] at earlier
        exact reported.mp rfl other
          (by simpa [Device.answers, Device.recorded,
            Device.aimedAt, Device.switchedTo] using earlier)
      · exact absurd absurdity (by decide)
    · exact reportedLater.mp switchedZero other inLater

/-- A tuner that cannot tune makes the last tuning to zero fail, too. -/
theorem not_switched_of_cannotTune
    (hasTuner : board.recording.tuner.isNone = false)
    (known : 0 ≤ device.recorded.directSampling)
    (tunes :
      Yields (tune board.recording 0) (device.recorded.aimedAt 0)
        first middle)
    (forgotten : (middle.tuned 0 first).freq = 0)
    (throughTuner : device.recorded.samplingFor 0 = 0)
    (cannotTune :
      board.recording.tuner.bind TunerInterface.setFreq = none) :
    ¬ Yields
        (switchSampling board.recording (setCenterFreqAt board.recording 2)
          (device.recorded.samplingFor 0))
        (middle.tuned 0 first) 0 after := by
  intro switches
  rcases switchSampling_yields switches with
    ⟨switched, last, retuned, _, lastSoftware, retunes, combined⟩
  have lastSettled :
      (last.switchedTo (device.recorded.samplingFor 0)).directSampling =
        (last.switchedTo (device.recorded.samplingFor 0)).samplingFor 0 := by
    rw [← switched_samplingFor tunes lastSoftware]
    exact (last.samplingFor_switchedTo 0).symm
  rw [forgotten] at retunes
  rcases setCenterFreqAt_settled hasTuner
      (device.recorded.samplingFor_nonneg known 0) lastSettled retunes with
    ⟨_, tunesLast, _⟩
  have refusedLast := tune_without throughTuner cannotTune tunesLast
  rw [refusedLast] at combined
  exact absurd (or_eq_zero.mp combined).2 (by decide)

end Switching

/--
A result of zero of `rtlsdr_set_center_freq` means that the frequency is set, in
its sampling mode, and that no operation has failed, exactly when the call does
not lose an error: when no failed tuning that switches the mode is followed by
operations that all succeed.
-/
theorem setCenterFreq_reports_iff
    (board : Board Hardware)
    (device : Device Hardware)
    (freq : UInt32)
    {answer : Int32}
    {after : Device (Hardware × List Int32)}
    (yields :
      Yields (setCenterFreq board.recording freq) device.recorded
        answer after) :
    (answer = 0 → Reported freq after) ↔
      ¬ LosesError board.recording device.recorded freq := by
  by_cases refused :
      board.recording.tuner.isNone ∨ device.recorded.directSampling < 0
  · have rejected := (setCenterFreqAt_refused refused yields).1
    constructor
    · rintro _ ⟨⟨hasTuner, known, _⟩, _⟩
      rcases refused with noTuner | unknown
      · rw [hasTuner] at noTuner
        cases noTuner
      · exact absurd unknown (Int.not_lt.mpr known)
    · intro _ accepted
      exact absurd accepted rejected
  rcases not_or.mp refused with ⟨tunerPresent, modeKnown⟩
  have hasTuner : board.recording.tuner.isNone = false :=
    (Bool.not_eq_true _).mp tunerPresent
  have known : 0 ≤ device.recorded.directSampling := Int.not_lt.mp modeKnown
  by_cases settled :
      device.recorded.directSampling = device.recorded.samplingFor freq
  · constructor
    · rintro _ ⟨⟨_, _, changed⟩, _⟩
      exact changed settled
    · intro _ accepted
      exact setCenterFreqAt_settled_reported hasTuner known settled
        (by simp [Device.answers, Device.recorded]) yields accepted
  rcases setCenterFreqAt_yields hasTuner known yields with
    ⟨first, middle, tunes, _, changed⟩
  have switches := changed settled
  have inMode := aimed_directSampling tunes
  by_cases failed : first = 0
  · subst failed
    constructor
    · rintro _ ⟨_, other, _, otherTunes, otherFailed, _⟩
      exact otherFailed (tunes.functional otherTunes).1.symm
    · intro _ accepted
      subst accepted
      exact reported_of_switched hasTuner known tunes switches
  · -- The first tuning fails, and its answer is dropped.
    have forgotten : (middle.tuned freq first).freq = 0 := if_neg failed
    have recoversFrom := switches
    rw [← inMode] at recoversFrom
    rcases switchSampling_recovers_iff hasTuner
        (inMode ▸ device.recorded.samplingFor_nonneg known freq)
        forgotten recoversFrom with
      ⟨afterForgotten, recovers⟩
    have loses :
        LosesError board.recording device.recorded freq ↔ answer = 0 := by
      rw [recovers]
      constructor
      · rintro ⟨_, other, otherMiddle, otherTunes, _, succeed⟩
        rcases tunes.functional otherTunes with ⟨rfl, rfl⟩
        exact succeed
      · intro succeed
        exact ⟨⟨hasTuner, known, settled⟩, first, middle, tunes, failed,
          succeed⟩
    rw [loses]
    constructor
    · intro reports accepted
      have reported := reports accepted
      rcases tune_notes tunes with
        ⟨noted, grown, firstReported⟩ | ⟨throughTuner, cannotTune, _, _⟩
      · refine failed (firstReported.mpr (fun other member => ?_))
        have inMiddle : other ∈ (middle.tuned freq first).answers := by
          change other ∈ middle.answers
          rw [grown]
          exact List.mem_append_right _ member
        exact reported.noErrors other
          ((switchSampling_grows switches).subset inMiddle)
      · have isZero : freq = 0 :=
          reported.tunedTo.symm.trans afterForgotten
        subst isZero
        subst accepted
        exact not_switched_of_cannotTune hasTuner known tunes forgotten
          throughTuner cannotTune switches
    · intro rejected accepted
      exact absurd accepted rejected

/-- A board whose register writes succeed and whose tuner answers as given. -/
def answeringBoard (setFreqAnswer : Int32) : Board Unit where
  demodWriteReg _ _ _ _ := pure 0
  tuner :=
    some
      { init := some (fun _ => pure 0)
        exit := some (pure 0)
        setFreq := some (fun _ _ => pure setFreqAnswer) }

/-- An R820T in automatic mode. -/
def automaticR820t (directSampling : Int) : Device Unit where
  rate := 2048000
  rtlXtal := 28800000
  directSampling := directSampling
  tunerType := .r820t
  tunXtal := 28800000
  freq := 7100000
  bw := 0
  offsFreq := 0
  corr := 0
  gain := 0
  directSamplingMode := 0
  hardware := ()

/-- A tuner that is switched to direct sampling and answers. -/
theorem setCenterFreq_reports_iff_shortwave :
    ∃ answer after,
      Yields
          (setCenterFreq (answeringBoard 0).recording 7100000)
          (automaticR820t 0).recorded answer after ∧
        ((answer = 0 → Reported 7100000 after) ↔
          ¬ LosesError (answeringBoard 0).recording
            (automaticR820t 0).recorded 7100000) := by
  have computed :
      ∃ answer after,
        Yields
            (setCenterFreq (answeringBoard 0).recording 7100000)
            (automaticR820t 0).recorded answer after ∧
          answer = 0 :=
    exists_yields (fun answer _ => answer) (by decide +kernel)
  rcases computed with ⟨answer, after, yields, _⟩
  exact ⟨answer, after, yields,
    setCenterFreq_reports_iff (answeringBoard 0) (automaticR820t 0) 7100000
      yields⟩

/--
The tuner cannot be tuned to 100 MHz.  The call goes back to direct sampling at
0 Hz and returns zero.
-/
theorem setCenterFreq_not_reported :
    ¬ ∀ (board : Board Unit)
        (device : Device Unit)
        (freq : UInt32)
        (answer : Int32)
        (after : Device (Unit × List Int32)),
        Yields (setCenterFreq board.recording freq) device.recorded
          answer after →
        answer = 0 →
        Reported freq after := by
  intro always
  have computed :
      ∃ answer after,
        Yields
            (setCenterFreq (answeringBoard (-1)).recording 100000000)
            (automaticR820t 2).recorded answer after ∧
          (answer, Device.freq after) = (0, 0) :=
    exists_yields (fun answer after => (answer, Device.freq after))
      (by decide +kernel)
  rcases computed with ⟨answer, after, yields, outcome⟩
  rcases Prod.mk.inj outcome with ⟨accepted, forgotten⟩
  have reported :=
    always (answeringBoard (-1)) (automaticR820t 2) 100000000 answer after
      yields accepted
  rw [reported.tunedTo] at forgotten
  exact absurd forgotten (by decide)

end LibRtlSdr.RtlSdr
