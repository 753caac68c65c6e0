import LibRtlSdr.ReadAsync

namespace LibRtlSdr.ReadAsync

open PartialRun

/-!
# Which transfers are in flight when the buffers are freed

`rtlsdr_read_async` gives a transfer up when handle_events fails, when it could
not be cancelled, and when the device is lost.  As long as nothing is in flight
in these moments, nothing is in flight when the transfers and the buffers are
freed.
-/

variable {state next : AsyncState}

/-- No transfer is in flight. -/
def NoneInFlight (state : AsyncState) : Prop :=
  ∀ i, state.inFlight i = false

/-- When the buffers are freed, no transfer is in flight. -/
def FreesIdle (state : AsyncState) : Prop :=
  state.pc = .freeing → NoneInFlight state

/--
A transfer is given up only when it is not in flight: handle_events fails in the
loop, the events after a failed cancelling are handled, or those before the exit
with a lost device.
-/
def GivesUpIdle (state : AsyncState) (action : AsyncAction) : Prop :=
  (∀ r < 0, action = .polled r → r ≠ errorInterrupted →
    NoneInFlight state) ∧
  (∀ i, action = .cancelPolled i → state.r < 0 →
    state.inFlight i = false) ∧
  (action = .lastPolled → state.devLost = true → NoneInFlight state)

/-- Nothing went wrong: no transfer is given up in this step. -/
def Smooth (state : AsyncState) : AsyncAction → Prop
  | .polled r => 0 ≤ r
  | .cancelPolled _ => 0 ≤ state.r
  | .lastPolled => state.devLost = false
  | _ => True

instance (state : AsyncState) :
    (action : AsyncAction) → Decidable (Smooth state action)
  | .submitted _ _ => isTrue trivial
  | .polled _ => inferInstanceAs (Decidable (_ ≤ _))
  | .skipped _ => isTrue trivial
  | .cancelled _ _ => isTrue trivial
  | .cancelPolled _ => inferInstanceAs (Decidable (_ ≤ _))
  | .passDone => isTrue trivial
  | .lastPolled => inferInstanceAs (Decidable (_ = _))
  | .freed => isTrue trivial
  | .finished => isTrue trivial
  | .cancelAsync => isTrue trivial
  | .deliver _ _ _ => isTrue trivial

theorem Smooth.givesUpIdle
    {action : AsyncAction}
    (smooth : Smooth state action) :
    GivesUpIdle state action := by
  refine ⟨?_, ?_, ?_⟩
  · intro r failed isPolled
    subst isPolled
    exact absurd failed (Int.not_lt.mpr smooth)
  · intro i isPolled failed
    subst isPolled
    exact absurd failed (Int.not_lt.mpr smooth)
  · intro isLast lost
    subst isLast
    exact absurd (lost.symm.trans smooth) (by decide)

/-- No transfer below `k` is in flight, unless the pass could cancel one. -/
def ClearBelow (k : Nat) (state : AsyncState) : Prop :=
  state.nextStatus = .inactive → ∀ i < k, state.inFlight i = false

/-- What the function knows of the transfers where it stands. -/
def KnowsAt (state : AsyncState) : ReadAsyncPc → Prop
  | .submitting i =>
      i < state.xferBufNum ∧ ∀ j, state.xferStatus j ≠ .cancelled
  | .polling => True
  | .cancelling k => ClearBelow k state
  | .cancelPolling k => ClearBelow k state
  | .lastPolling => state.devLost = false → NoneInFlight state
  | .freeing => NoneInFlight state
  | .finishing => NoneInFlight state
  | .returned => NoneInFlight state

/-- The transfers as the function takes them to be. -/
structure Accounted (state : AsyncState) : Prop where
  bounded : ∀ i, state.inFlight i = true → i < state.xferBufNum
  cancelledDone :
    ∀ i, state.xferStatus i = .cancelled → state.inFlight i = false
  active : state.pc ≠ .returned → state.asyncStatus ≠ .inactive
  here : KnowsAt state state.pc

namespace Accounted

theorem enter
    (bufNum : Nat)
    (devLost : Bool)
    (xferErrors : Nat) :
    Accounted (AsyncState.enter bufNum devLost xferErrors) where
  bounded := by
    intro i inFlight
    exact (Bool.false_ne_true inFlight).elim
  cancelledDone := by
    intro i _
    rfl
  active := by
    intro _
    exact AsyncStatus.noConfusion
  here := by
    refine ⟨?_, fun _ => TransferStatus.noConfusion⟩
    simp only [AsyncState.enter]
    split_ifs with positive
    · exact positive
    · decide

/-- While the function runs, its loop goes on. -/
theorem loopHead
    (bounded : ∀ i, state.inFlight i = true → i < state.xferBufNum)
    (cancelledDone :
      ∀ i, state.xferStatus i = .cancelled → state.inFlight i = false)
    (active : state.asyncStatus ≠ .inactive) :
    Accounted state.loopHead where
  bounded := bounded
  cancelledDone := cancelledDone
  active := fun _ => active
  here := by
    simp only [AsyncState.loopHead]
    rw [if_neg active]
    trivial

theorem afterSubmit
    (accounted : Accounted state)
    {i : Nat}
    (here : state.pc = .submitting i)
    (r : Int) :
    Accounted (state.afterSubmit i r) := by
  have knows := accounted.here
  rw [here] at knows
  have active : state.asyncStatus ≠ .inactive :=
    accounted.active (by rw [here]; exact ReadAsyncPc.noConfusion)
  have boundedNow :
      ∀ j, Function.update state.inFlight i true j = true →
        j < state.xferBufNum := by
    intro j inFlight
    by_cases same : j = i
    · rw [same]
      exact knows.1
    · rw [Function.update_of_ne same] at inFlight
      exact accounted.bounded j inFlight
  have cancelledNow :
      ∀ j, state.xferStatus j = .cancelled →
        Function.update state.inFlight i true j = false :=
    fun j cancelled => (knows.2 j cancelled).elim
  unfold AsyncState.afterSubmit
  split_ifs with failed more
  · exact loopHead accounted.bounded accounted.cancelledDone
      AsyncStatus.noConfusion
  · exact
      { bounded := boundedNow
        cancelledDone := cancelledNow
        active := fun _ => active
        here := ⟨more, knows.2⟩ }
  · exact loopHead boundedNow cancelledNow active

theorem afterPoll
    (accounted : Accounted state)
    (here : state.pc = .polling)
    (r : Int)
    (idle : r < 0 → r ≠ errorInterrupted → NoneInFlight state) :
    Accounted (state.afterPoll r) := by
  have active : state.asyncStatus ≠ .inactive :=
    accounted.active (by rw [here]; exact ReadAsyncPc.noConfusion)
  unfold AsyncState.afterPoll
  split_ifs with failed interrupted canceling
  · exact loopHead accounted.bounded accounted.cancelledDone active
  · exact
      { bounded := accounted.bounded
        cancelledDone := accounted.cancelledDone
        active := fun _ => active
        here := idle failed interrupted }
  · exact
      { bounded := accounted.bounded
        cancelledDone := accounted.cancelledDone
        active := fun _ => active
        here := fun _ i below => absurd below (Nat.not_lt_zero i) }
  · exact loopHead accounted.bounded accounted.cancelledDone active

/-- One transfer more is clear. -/
theorem clearBelow_succ
    {k : Nat}
    (clear : ClearBelow k state)
    (idle : state.nextStatus = .inactive → state.inFlight k = false) :
    ClearBelow (k + 1) state := by
  intro inactive i below
  rcases Nat.lt_succ_iff_lt_or_eq.mp below with earlier | same
  · exact clear inactive i earlier
  · rw [same]
    exact idle inactive

theorem afterCancelPoll
    (accounted : Accounted state)
    {k : Nat}
    (here : state.pc = .cancelPolling k)
    (idle : state.r < 0 → state.inFlight k = false) :
    Accounted (state.afterCancelPoll k) := by
  have knows := accounted.here
  rw [here] at knows
  have active : state.asyncStatus ≠ .inactive :=
    accounted.active (by rw [here]; exact ReadAsyncPc.noConfusion)
  unfold AsyncState.afterCancelPoll
  split_ifs with failed
  · exact
      { bounded := accounted.bounded
        cancelledDone := accounted.cancelledDone
        active := fun _ => active
        here := clearBelow_succ knows (fun _ => idle failed) }
  · exact
      { bounded := accounted.bounded
        cancelledDone := accounted.cancelledDone
        active := fun _ => active
        here := by
          intro inactive
          exact nomatch inactive }

theorem afterPass
    (accounted : Accounted state)
    (here : state.pc = .cancelling state.xferBufNum) :
    Accounted state.afterPass := by
  have knows := accounted.here
  rw [here] at knows
  have active : state.asyncStatus ≠ .inactive :=
    accounted.active (by rw [here]; exact ReadAsyncPc.noConfusion)
  unfold AsyncState.afterPass
  split_ifs with last
  · refine
      { bounded := accounted.bounded
        cancelledDone := accounted.cancelledDone
        active := fun _ => active
        here := ?_ }
    intro present i
    rcases last with lost | inactive
    · exact absurd (lost.symm.trans present) (by decide)
    · by_contra inFlight
      have held : state.inFlight i = true := eq_true_of_ne_false inFlight
      exact inFlight (knows inactive i (accounted.bounded i held))
  · exact loopHead accounted.bounded accounted.cancelledDone active

/-- A report does not put a transfer in flight that was not. -/
theorem inFlight_of_reported
    {i : Nat}
    (reported : AsyncState.Reported state next i)
    (was : state.inFlight i = true)
    {j : Nat}
    (idle : state.inFlight j = false) :
    next.inFlight j = false := by
  have differs : j ≠ i := by
    intro same
    rw [same, was] at idle
    exact Bool.false_ne_true idle.symm
  rw [reported.others j differs]
  exact idle

theorem deliver
    (accounted : Accounted state)
    {i : Nat}
    (inEvents : state.pc.InEvents)
    (was : state.inFlight i = true)
    (reported : AsyncState.Reported state next i) :
    Accounted next := by
  have kept {j : Nat} (idle : state.inFlight j = false) :
      next.inFlight j = false :=
    inFlight_of_reported reported was idle
  refine
    { bounded := ?_
      cancelledDone := ?_
      active := ?_
      here := ?_ }
  · intro j inFlight
    rw [reported.xferBufNum]
    by_cases same : j = i
    · rw [same]
      exact accounted.bounded i was
    · rw [reported.others j same] at inFlight
      exact accounted.bounded j inFlight
  · intro j cancelled
    by_cases same : j = i
    · subst same
      exact reported.cancelled cancelled
    · rw [reported.othersStatus j same] at cancelled
      exact kept (accounted.cancelledDone j cancelled)
  · rw [reported.pc]
    exact fun running => reported.active (accounted.active running)
  · have knows := accounted.here
    rw [reported.pc]
    cases here : state.pc with
    | polling =>
        trivial
    | cancelPolling k =>
        rw [here] at knows
        intro inactive j below
        rw [reported.nextStatus] at inactive
        exact kept (knows inactive j below)
    | lastPolling =>
        rw [here] at knows
        intro present j
        refine kept (knows ?_ j)
        by_contra lost
        exact Bool.false_ne_true
          (present.symm.trans
            (reported.devLost (eq_true_of_ne_false lost)))
    | submitting k =>
        rw [here] at inEvents
        exact inEvents.elim
    | cancelling k =>
        rw [here] at inEvents
        exact inEvents.elim
    | freeing =>
        rw [here] at inEvents
        exact inEvents.elim
    | finishing =>
        rw [here] at inEvents
        exact inEvents.elim
    | returned =>
        rw [here] at inEvents
        exact inEvents.elim

/-- The flags that `rtlsdr_cancel_async` sets say nothing about the transfers. -/
theorem cancelAsync
    (accounted : Accounted state) :
    Accounted state.cancelAsync := by
  rcases state.cancelAsync_cases with same | ⟨_, canceling⟩
  · rw [same]
    exact accounted
  · rw [canceling]
    have knows := accounted.here
    refine
      { bounded := accounted.bounded
        cancelledDone := accounted.cancelledDone
        active := fun _ => AsyncStatus.noConfusion
        here := ?_ }
    cases here : state.pc <;> rw [here] at knows <;> exact knows

/-- A step that gives up idle transfers only keeps the account. -/
theorem step
    (accounted : Accounted state)
    {action : AsyncAction}
    (idle : GivesUpIdle state action)
    (taken : state.step action = some next) :
    Accounted next := by
  obtain ⟨enabled, rfl⟩ := AsyncState.step_eq_some.mp taken
  have knows := accounted.here
  cases action with
  | submitted i r =>
      exact accounted.afterSubmit enabled r
  | polled r =>
      exact accounted.afterPoll enabled r
        (fun failed => idle.1 r failed rfl)
  | skipped i =>
      obtain ⟨here, _, cancelled⟩ := enabled
      rw [here] at knows
      exact
        { bounded := accounted.bounded
          cancelledDone := accounted.cancelledDone
          active := fun _ =>
            accounted.active (by rw [here]; exact ReadAsyncPc.noConfusion)
          here := clearBelow_succ knows
            (fun _ => accounted.cancelledDone i cancelled) }
  | cancelled i r =>
      obtain ⟨here, _, _⟩ := enabled
      rw [here] at knows
      exact
        { bounded := accounted.bounded
          cancelledDone := accounted.cancelledDone
          active := fun _ =>
            accounted.active (by rw [here]; exact ReadAsyncPc.noConfusion)
          here := knows }
  | cancelPolled i =>
      exact accounted.afterCancelPoll enabled (idle.2.1 i rfl)
  | passDone =>
      exact accounted.afterPass enabled
  | lastPolled =>
      have here : state.pc = .lastPolling := enabled
      rw [here] at knows
      refine
        { bounded := accounted.bounded
          cancelledDone := accounted.cancelledDone
          active := fun _ =>
            accounted.active (by rw [here]; exact ReadAsyncPc.noConfusion)
          here := ?_ }
      show NoneInFlight state
      cases lost : state.devLost with
      | false =>
          exact knows lost
      | true =>
          exact idle.2.2 rfl lost
  | freed =>
      have here : state.pc = .freeing := enabled
      rw [here] at knows
      exact
        { bounded := accounted.bounded
          cancelledDone := accounted.cancelledDone
          active := fun _ =>
            accounted.active (by rw [here]; exact ReadAsyncPc.noConfusion)
          here := knows }
  | finished =>
      have here : state.pc = .finishing := enabled
      rw [here] at knows
      exact
        { bounded := accounted.bounded
          cancelledDone := accounted.cancelledDone
          active := fun running => (running rfl).elim
          here := knows }
  | cancelAsync =>
      exact accounted.cancelAsync
  | deliver i status r =>
      exact accounted.deliver enabled.1 enabled.2
        (state.report_spec i status r)

end Accounted

/-- The exits of the loop are taken when no transfer is in flight. -/
def ExitsIdle (state : AsyncState) (action : AsyncAction) : Prop :=
  (∀ r < 0, action = .polled r → r ≠ errorInterrupted →
    NoneInFlight state) ∧
  (action = .lastPolled → NoneInFlight state)

/-- An exit with a transfer in flight frees it. -/
theorem exitsIdle_of_freesIdle
    {action : AsyncAction}
    (taken : state.step action = some next)
    (frees : FreesIdle next) :
    ExitsIdle state action := by
  obtain ⟨_, rfl⟩ := AsyncState.step_eq_some.mp taken
  refine ⟨?_, ?_⟩
  · intro r failed isPolled notInterrupted
    subst isPolled
    have exits :
        state.effect (.polled r) = { state with r := r, pc := .freeing } := by
      simp only [AsyncState.effect, AsyncState.afterPoll]
      rw [if_pos failed, if_neg notInterrupted]
    rw [exits] at frees
    exact frees rfl
  · intro isLast
    subst isLast
    exact frees rfl

/--
In every run in which a transfer is given up only when it is not in flight, no
transfer is in flight when the buffers are freed.  The exits on an error of
handle_events and after a last pass need that in every such run.
-/
theorem freesIdle_of_givesUpIdle
    (bufNum : Nat)
    (devLost : Bool)
    (xferErrors : Nat)
    (actions : List AsyncAction) :
    (EveryStep AsyncState.step GivesUpIdle
        (.enter bufNum devLost xferErrors) actions →
      EveryState AsyncState.step FreesIdle
        (.enter bufNum devLost xferErrors) actions) ∧
    (EveryState AsyncState.step FreesIdle
        (.enter bufNum devLost xferErrors) actions →
      EveryStep AsyncState.step ExitsIdle
        (.enter bufNum devLost xferErrors) actions) := by
  constructor
  · intro idle earlier later state split reached
    subst split
    have accounted : Accounted state :=
      invariant_of_everyStep Accounted
        (fun accounted idle taken => accounted.step idle taken)
        (Accounted.enter bufNum devLost xferErrors)
        idle.of_append reached
    intro here
    have knows := accounted.here
    rw [here] at knows
    exact knows
  · intro frees earlier action later state next split reached taken
    refine exitsIdle_of_freesIdle taken
      (frees (earlier ++ [action]) later next (by rw [split]; simp) ?_)
    exact run_concat_eq_some.mpr ⟨state, reached, taken⟩

/-- One transfer that is cancelled, reported and freed. -/
def cancelledRun : List AsyncAction :=
  [.submitted 0 0, .cancelAsync, .polled 0, .cancelled 0 0,
    .deliver 0 .cancelled 0, .cancelPolled 0, .passDone, .polled 0,
    .skipped 0, .passDone, .lastPolled]

/-- Nothing is given up in flight there. -/
theorem freesIdle_cancelledRun :
    EveryState AsyncState.step FreesIdle (.enter 1 false 0)
      cancelledRun := by
  refine (freesIdle_of_givesUpIdle 1 false 0 cancelledRun).1 ?_
  have smooth :
      EveryStep AsyncState.step Smooth (.enter 1 false 0) cancelledRun := by
    iterate 11 refine .cons rfl (by decide) ?_
    exact .nil _
  intro earlier action later state next split reached taken
  exact (smooth earlier action later state next split reached
    taken).givesUpIdle

/-- handle_events fails while the only transfer is in flight. -/
def failingEventsRun : List AsyncAction :=
  [.submitted 0 0, .polled (-1)]

/-- The transfer is freed while libusb still owns it. -/
theorem freed_in_flight :
    ¬ ∀ (bufNum : Nat)
        (devLost : Bool)
        (xferErrors : Nat)
        (actions : List AsyncAction)
        (state : AsyncState),
        run AsyncState.step (.enter bufNum devLost xferErrors) actions =
          some state →
        FreesIdle state := by
  intro claimed
  have frees := claimed 1 false 0 failingEventsRun _ rfl
  exact Bool.false_ne_true ((frees rfl 0).symm.trans rfl)

end LibRtlSdr.ReadAsync
