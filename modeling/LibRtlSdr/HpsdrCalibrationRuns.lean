import LibRtlSdr.HpsdrCalibrationPhases

namespace LibRtlSdr.Hpsdr

open PartialRun (run EveryStep)

/-!
# Runs of the calibration

A run whose callbacks all act on tests that still hold stays in a phase, and in every
phase offsets are attributed rightly.  The tests are made without the lock, and a run in
which two callbacks act on stale ones misattributes an offset and sets a bit that it
should clear.
-/

/-! ## Receivers that are not due -/

/-- A buffer of a receiver that is not due, and its whole callback. -/
def quiet (r : Nat) : List CalAction :=
  .deliver r :: List.replicate 4 (.callback r)

/-- `n` buffers of a receiver that is not due. -/
def quiets (r n : Nat) : List CalAction :=
  (List.replicate n (quiet r)).flatten

/-- While no receiver is calibrated, a callback that is not due adds to its count. -/
theorem run_quiet
    {config : CalConfig}
    {s : Calibration}
    {r : Nat}
    (isReceiver : r < config.total.count)
    (isIdle : s.callback r = .idle)
    (isFree : s.calRcvr < 0)
    (isState : s.calState = calState0)
    (notDue : s.calCount r + 1 ≤ s.doCalTime * 20)
    (notEmpty : s.calRcvrMask ≠ 0) :
    run (calStep config) s (quiet r) =
        some { s with calCount := Function.update s.calCount r (s.calCount r + 1) } ∧
      EveryStep (calStep config) Current s (quiet r) := by
  let counted := { s with calCount := Function.update s.calCount r (s.calCount r + 1) }
  have delivered :
      calStep config s (.deliver r) = some (counted.goes r (.testFree (s.tunings r))) := by
    simp [calStep, isReceiver, isIdle, deliver, counted]
  have free :
      calStep config (counted.goes r (.testFree (s.tunings r))) (.callback r) =
        some (counted.goes r (.testState0 (s.tunings r))) := by
    have stillFree : (counted.goes r (.testFree (s.tunings r))).calRcvr < 0 := isFree
    simp [calStep, isReceiver, callbackStep, stillFree]
  have state0 :
      calStep config (counted.goes r (.testState0 (s.tunings r))) (.callback r) =
        some (counted.goes r .testDue) := by
    have still : (counted.goes r (.testState0 (s.tunings r))).calState = calState0 := isState
    simp [calStep, isReceiver, callbackStep, still]
  have due :
      calStep config (counted.goes r .testDue) (.callback r) =
        some (counted.goes r .testEmpty) := by
    have few :
        (counted.goes r .testDue).calCount r ≤ (counted.goes r .testDue).doCalTime * 20 := by
      simpa [Calibration.goes, counted] using notDue
    simp [calStep, isReceiver, callbackStep, Nat.not_lt.mpr few]
  have empty :
      calStep config (counted.goes r .testEmpty) (.callback r) = some counted := by
    have still : (counted.goes r .testEmpty).calRcvrMask ≠ 0 := notEmpty
    have rests : counted.goes r .idle = counted := by
      simp only [Calibration.goes, ← isIdle, counted]
      rw [Function.update_eq_self]
    simp [calStep, isReceiver, callbackStep, still, rests]
  have keeps :
      ∀ place : CalCallback, place.Current (counted.goes r place) r →
        Current (counted.goes r place) (.callback r) := by
    intro place isCurrent
    rw [Current, Calibration.goes_callback]
    exact isCurrent
  constructor
  · exact
      PartialRun.run_cons_of_step delivered
        (PartialRun.run_cons_of_step free
          (PartialRun.run_cons_of_step state0
            (PartialRun.run_cons_of_step due
              (PartialRun.run_cons_of_step empty (PartialRun.run_nil counted)))))
  · exact
      .cons delivered trivial
        (.cons free (keeps _ trivial)
          (.cons state0 (keeps _ trivial)
            (.cons due (keeps _ trivial)
              (.cons empty (keeps _ trivial) (.nil counted)))))

/-- And `n` of them add `n`. -/
theorem run_quiets
    {config : CalConfig}
    {r : Nat}
    (isReceiver : r < config.total.count)
    (n : Nat)
    {s : Calibration}
    (isIdle : s.callback r = .idle)
    (isFree : s.calRcvr < 0)
    (isState : s.calState = calState0)
    (notDue : s.calCount r + n ≤ s.doCalTime * 20)
    (notEmpty : s.calRcvrMask ≠ 0) :
    run (calStep config) s (quiets r n) =
        some { s with calCount := Function.update s.calCount r (s.calCount r + n) } ∧
      EveryStep (calStep config) Current s (quiets r n) := by
  induction n generalizing s with
  | zero =>
      refine ⟨?_, EveryStep.nil s⟩
      simp [quiets]
  | succ n inductionHypothesis =>
      obtain ⟨reachedFirst, currentFirst⟩ :=
        run_quiet isReceiver isIdle isFree isState (by omega) notEmpty
      obtain ⟨reachedRest, currentRest⟩ :=
        @inductionHypothesis
          { s with calCount := Function.update s.calCount r (s.calCount r + 1) }
          isIdle isFree isState
          (by
            dsimp only
            rw [Function.update_self]
            omega)
          notEmpty
      constructor
      · rw [quiets, List.replicate_succ, List.flatten_cons, PartialRun.run_append,
          reachedFirst, Option.bind_some]
        refine reachedRest.trans ?_
        simp [Nat.add_assoc, Nat.add_comm 1]
      · exact currentFirst.append reachedFirst currentRest

/-- Three receivers, all of them in the mask. -/
def threeReceivers : CalConfig where
  total := ⟨3, by decide, by decide⟩
  rcvrsMask := 7

/-- The first two receivers may be calibrated with their next buffer. -/
def ready : Calibration :=
  { Calibration.initial threeReceivers true with
    calCount := Function.update (Function.update (fun _ => 0) 0 100) 1 100 }

/-- Nothing but quiet buffers leads there. -/
theorem run_ready :
    run (calStep threeReceivers) (.initial threeReceivers true)
        (quiets 0 100 ++ quiets 1 100) =
        some ready ∧
      EveryStep (calStep threeReceivers) Current (.initial threeReceivers true)
        (quiets 0 100 ++ quiets 1 100) := by
  obtain ⟨reachedFirst, currentFirst⟩ :=
    @run_quiets threeReceivers 0 (by decide) 100 (.initial threeReceivers true) rfl
      (by decide) rfl (by decide) (by decide)
  obtain ⟨reachedSecond, currentSecond⟩ :=
    @run_quiets threeReceivers 1 (by decide) 100
      { Calibration.initial threeReceivers true with
        calCount := Function.update (fun _ => 0) 0 100 }
      rfl (by decide) rfl (by decide) (by decide)
  exact
    ⟨PartialRun.run_append_eq_some.mpr ⟨_, reachedFirst, reachedSecond⟩,
      currentFirst.append reachedFirst currentSecond⟩

/-! ## Attribution -/

/-- While every callback acts on tests that still hold, a run stays in a phase. -/
theorem exists_phase_of_current
    {config : CalConfig}
    {activated : Bool}
    {actions : List CalAction}
    (current : EveryStep (calStep config) Current (.initial config activated) actions)
    {s : Calibration}
    (reached : run (calStep config) (.initial config activated) actions = some s) :
    ∃ phase, InPhase config s phase := by
  refine
    PartialRun.invariant_of_everyStep (fun s => ∃ phase, InPhase config s phase) ?_
      ⟨.free, inPhase_initial config activated⟩ current reached
  rintro state action next ⟨phase, inPhase⟩ isCurrent taken
  exact inPhase_calStep inPhase isCurrent taken

/--
For all receivers and every interleaving: while every callback acts on tests that still
hold, each offset is computed from a buffer of the receiver that its dongle delivered
after it was tuned, and the bit of the receiver goes from 1 to 0.
-/
theorem attributes_of_current
    (config : CalConfig)
    (activated : Bool)
    (actions : List CalAction)
    (current : EveryStep (calStep config) Current (.initial config activated) actions) :
    EveryStep (calStep config) Attributes (.initial config activated) actions := by
  intro earlier action later s next split reached _
  have currentBefore : EveryStep (calStep config) Current (.initial config activated) earlier :=
    (split ▸ current).of_append
  obtain ⟨phase, inPhase⟩ := exists_phase_of_current currentBefore reached
  exact inPhase.attributes action

/-- One receiver asks for the thread, is tuned, hands over its next buffer, and the thread
computes its offset. -/
def soundRound (r : Nat) : List CalAction :=
  List.flatten
    [.deliver r :: List.replicate 6 (.callback r), List.replicate 8 .thread,
      .deliver r :: List.replicate 6 (.callback r), List.replicate 7 .thread,
      .deliver r :: List.replicate 9 (.callback r)]

/-- Two receivers are calibrated one after the other. -/
theorem attributes_of_current_rounds :
    EveryStep (calStep threeReceivers) Attributes (.initial threeReceivers true)
      ((quiets 0 100 ++ quiets 1 100) ++ (soundRound 0 ++ soundRound 1)) := by
  obtain ⟨reached, current⟩ := run_ready
  exact
    attributes_of_current threeReceivers true _ (current.append reached (by decide +kernel))

/-- The callbacks of receivers 0 and 2 pass their first test; receiver 1 is tuned; and
receiver 2 hands over its buffer. -/
def staleBuffer : List CalAction :=
  List.flatten
    [[.deliver 0, .callback 0, .deliver 2, .callback 2],
      .deliver 1 :: List.replicate 6 (.callback 1), List.replicate 8 .thread,
      List.replicate 4 (.callback 2), List.replicate 3 .thread]

/-- Receivers 1 and 0 both find `CAL_STATE_3`, and receiver 1 resets `cal_state` only when
the offset of receiver 0 is computed: receiver 0 asks for the thread a second time. -/
def staleRequest : List CalAction :=
  List.flatten
    [List.replicate 4 .thread,
      .deliver 1 :: List.replicate 5 (.callback 1), List.replicate 7 (.callback 0),
      .deliver 0 :: List.replicate 6 (.callback 0), List.replicate 8 .thread,
      .deliver 0 :: List.replicate 6 (.callback 0), List.replicate 3 .thread,
      List.replicate 2 (.callback 1),
      .deliver 0 :: List.replicate 3 (.callback 0), List.replicate 4 .thread,
      List.replicate 3 (.callback 0), List.replicate 8 .thread,
      .deliver 0 :: List.replicate 6 (.callback 0), List.replicate 6 .thread]

/-- The offset of receiver 1 is computed from a buffer of receiver 2, and later the bit of
receiver 0 goes from 0 to 1. -/
theorem misattributes :
    ¬ EveryStep (calStep threeReceivers) OwnBuffer (.initial threeReceivers true)
        ((quiets 0 100 ++ quiets 1 100) ++ (staleBuffer ++ staleRequest)) ∧
      ¬ EveryStep (calStep threeReceivers) ClearsBit (.initial threeReceivers true)
        ((quiets 0 100 ++ quiets 1 100) ++ (staleBuffer ++ staleRequest)) := by
  have reached := run_ready.1
  constructor
  · intro ownBuffer
    exact absurd (ownBuffer.after reached) (by decide +kernel)
  · intro clearsBit
    exact absurd (clearsBit.after reached) (by decide +kernel)

end LibRtlSdr.Hpsdr
