import LibRtlSdr.ReadAsync

namespace LibRtlSdr.ReadAsync

open PartialRun

/-!
# The status that `rtlsdr_read_async` leaves behind

`next_status` is set to canceling in a pass that could cancel a transfer, and
back to inactive at the start of the next pass only.  An exit between the two
leaves the device in the canceling state for good: `rtlsdr_close` waits until
the status is inactive, and `rtlsdr_read_async` refuses to start before.
-/

variable {state next : AsyncState}

/-- Some transfer was cancelled successfully. -/
def EverCancelled (history : List AsyncAction) : Prop :=
  ∃ i r, 0 ≤ r ∧ .cancelled i r ∈ history

/-- Whether one was since the handle_events at the head of the loop. -/
def noteCancelled (found : Bool) : AsyncAction → Bool
  | .polled _ => false
  | .cancelled _ r => found || decide (0 ≤ r)
  | _ => found

def passCancelled (history : List AsyncAction) : Bool :=
  history.foldl noteCancelled false

/--
The exits that are taken while a cancelling is under way: handle_events fails
after some transfer was cancelled, or the device is lost in a pass in which one
was.
-/
def ExitsPending
    (history : List AsyncAction)
    (state : AsyncState)
    (action : AsyncAction) : Prop :=
  (∃ r < 0, action = .polled r ∧ r ≠ errorInterrupted ∧
    EverCancelled history) ∨
  (action = .passDone ∧ state.devLost = true ∧
    passCancelled history = true)

@[simp] theorem passCancelled_concat
    (history : List AsyncAction)
    (action : AsyncAction) :
    passCancelled (history ++ [action]) =
      noteCancelled (passCancelled history) action := by
  simp [passCancelled, List.foldl_append]

theorem everCancelled_concat_iff
    (history : List AsyncAction)
    (action : AsyncAction) :
    EverCancelled (history ++ [action]) ↔
      EverCancelled history ∨ ∃ i r, 0 ≤ r ∧ action = .cancelled i r := by
  simp only [EverCancelled, List.mem_append, List.mem_singleton]
  constructor
  · rintro ⟨i, r, success, before | last⟩
    · exact .inl ⟨i, r, success, before⟩
    · exact .inr ⟨i, r, success, last.symm⟩
  · rintro (⟨i, r, success, before⟩ | ⟨i, r, success, last⟩)
    · exact ⟨i, r, success, .inl before⟩
    · exact ⟨i, r, success, .inr last.symm⟩

/-- A cancelling in this pass is a cancelling. -/
theorem everCancelled_of_passCancelled
    {history : List AsyncAction}
    (found : passCancelled history = true) :
    EverCancelled history := by
  induction history using List.reverseRecOn with
  | nil =>
      exact absurd found (by decide)
  | append_singleton history action inductionHypothesis =>
      rw [passCancelled_concat] at found
      rw [everCancelled_concat_iff]
      cases action with
      | polled r =>
          exact absurd found (by simp [noteCancelled])
      | cancelled i r =>
          simp only [noteCancelled, Bool.or_eq_true,
            decide_eq_true_eq] at found
          rcases found with before | success
          · exact .inl (inductionHypothesis before)
          · exact .inr ⟨i, r, success, rfl⟩
      | _ =>
          exact .inl (inductionHypothesis found)

/-- What `next_status` says where the function stands. -/
def StatusAt
    (history : List AsyncAction)
    (exited : Prop)
    (state : AsyncState) :
    ReadAsyncPc → Prop
  | .submitting _ =>
      ¬ exited ∧ state.nextStatus = .inactive ∧ ¬ EverCancelled history
  | .polling =>
      ¬ exited ∧
        (state.nextStatus = .inactive ↔ ¬ EverCancelled history)
  | .cancelling _ =>
      ¬ exited ∧
        (state.nextStatus = .inactive ↔ passCancelled history = false)
  | .cancelPolling _ =>
      ¬ exited ∧
        ((state.nextStatus = .inactive ∧ state.r < 0) ↔
          passCancelled history = false)
  | .lastPolling => exited ↔ state.nextStatus ≠ .inactive
  | .freeing => exited ↔ state.nextStatus ≠ .inactive
  | .finishing => exited ↔ state.nextStatus ≠ .inactive
  | .returned => exited ↔ state.asyncStatus ≠ .inactive

/-- What is known of the status after the actions so far. -/
structure StatusKnown
    (history : List AsyncAction)
    (exited : Prop)
    (state : AsyncState) : Prop where
  active : state.pc ≠ .returned → state.asyncStatus ≠ .inactive
  here : StatusAt history exited state state.pc

namespace StatusKnown

variable
  {history : List AsyncAction}
  {exited : Prop}

theorem enter
    (bufNum : Nat)
    (devLost : Bool)
    (xferErrors : Nat)
    (notExited : ¬ exited) :
    StatusKnown [] exited (.enter bufNum devLost xferErrors) where
  active := fun _ => AsyncStatus.noConfusion
  here := by
    refine ⟨notExited, rfl, ?_⟩
    rintro ⟨i, r, _, member⟩
    exact nomatch member

/-- While the function runs, its loop goes on. -/
theorem loopHead
    (active : state.asyncStatus ≠ .inactive)
    (notExited : ¬ exited)
    (noted : state.nextStatus = .inactive ↔ ¬ EverCancelled history) :
    StatusKnown history exited state.loopHead where
  active := fun _ => active
  here := by
    simp only [AsyncState.loopHead]
    rw [if_neg active]
    exact ⟨notExited, noted⟩

theorem submitted
    (known : StatusKnown history exited state)
    {i : Nat}
    (pc : state.pc = .submitting i)
    (r : Int) :
    StatusKnown (history ++ [.submitted i r])
      (exited ∨ ExitsPending history state (.submitted i r))
      (state.afterSubmit i r) := by
  have here := known.here
  rw [pc] at here
  obtain ⟨notExited, inactive, never⟩ := here
  have active : state.asyncStatus ≠ .inactive :=
    known.active (by rw [pc]; exact ReadAsyncPc.noConfusion)
  have notNow :
      ¬ (exited ∨ ExitsPending history state (.submitted i r)) := by
    simp [ExitsPending, notExited]
  have neverNow : ¬ EverCancelled (history ++ [.submitted i r]) := by
    simp [everCancelled_concat_iff, never]
  unfold AsyncState.afterSubmit
  split_ifs
  · exact loopHead AsyncStatus.noConfusion notNow
      (iff_of_true inactive neverNow)
  · exact
      { active := fun _ => active
        here := ⟨notNow, inactive, neverNow⟩ }
  · exact loopHead active notNow (iff_of_true inactive neverNow)

theorem polled
    (known : StatusKnown history exited state)
    (pc : state.pc = .polling)
    (r : Int) :
    StatusKnown (history ++ [.polled r])
      (exited ∨ ExitsPending history state (.polled r))
      (state.afterPoll r) := by
  have here := known.here
  rw [pc] at here
  obtain ⟨notExited, noted⟩ := here
  have active : state.asyncStatus ≠ .inactive :=
    known.active (by rw [pc]; exact ReadAsyncPc.noConfusion)
  have notedNow :
      state.nextStatus = .inactive ↔
        ¬ EverCancelled (history ++ [.polled r]) := by
    rw [noted, everCancelled_concat_iff]
    simp
  have exitedNow :
      (exited ∨ ExitsPending history state (.polled r)) ↔
        r < 0 ∧ r ≠ errorInterrupted ∧ EverCancelled history := by
    simp [ExitsPending, notExited]
  unfold AsyncState.afterPoll
  split_ifs with failed interrupted canceling
  · refine loopHead active ?_ notedNow
    rw [exitedNow]
    exact fun exits => exits.2.1 interrupted
  · refine
      { active := fun _ => active
        here := ?_ }
    show _ ↔ state.nextStatus ≠ .inactive
    have pending : state.nextStatus ≠ .inactive ↔ EverCancelled history :=
      (not_congr noted).trans not_not
    rw [exitedNow, pending]
    exact ⟨fun exits => exits.2.2, fun ever => ⟨failed, interrupted, ever⟩⟩
  · refine
      { active := fun _ => active
        here := ⟨?_, ?_⟩ }
    · rw [exitedNow]
      exact fun exits => failed exits.1
    · rw [passCancelled_concat]
      exact iff_of_true rfl rfl
  · refine loopHead active ?_ notedNow
    rw [exitedNow]
    exact fun exits => failed exits.1

theorem skipped
    (known : StatusKnown history exited state)
    {i : Nat}
    (pc : state.pc = .cancelling i) :
    StatusKnown (history ++ [.skipped i])
      (exited ∨ ExitsPending history state (.skipped i))
      { state with pc := .cancelling (i + 1) } := by
  have here := known.here
  rw [pc] at here
  refine
    { active := fun _ =>
        known.active (by rw [pc]; exact ReadAsyncPc.noConfusion)
      here := ⟨?_, ?_⟩ }
  · simp [ExitsPending, here.1]
  · rw [passCancelled_concat]
    exact here.2

theorem cancelled
    (known : StatusKnown history exited state)
    {i : Nat}
    (pc : state.pc = .cancelling i)
    (r : Int) :
    StatusKnown (history ++ [.cancelled i r])
      (exited ∨ ExitsPending history state (.cancelled i r))
      { state with r := r, pc := .cancelPolling i } := by
  have here := known.here
  rw [pc] at here
  refine
    { active := fun _ =>
        known.active (by rw [pc]; exact ReadAsyncPc.noConfusion)
      here := ⟨?_, ?_⟩ }
  · simp [ExitsPending, here.1]
  · rw [passCancelled_concat]
    simp [noteCancelled, here.2]

theorem cancelPolled
    (known : StatusKnown history exited state)
    {i : Nat}
    (pc : state.pc = .cancelPolling i) :
    StatusKnown (history ++ [.cancelPolled i])
      (exited ∨ ExitsPending history state (.cancelPolled i))
      (state.afterCancelPoll i) := by
  have here := known.here
  rw [pc] at here
  have active : state.asyncStatus ≠ .inactive :=
    known.active (by rw [pc]; exact ReadAsyncPc.noConfusion)
  have notNow :
      ¬ (exited ∨ ExitsPending history state (.cancelPolled i)) := by
    simp [ExitsPending, here.1]
  have sameNote :
      passCancelled (history ++ [.cancelPolled i]) =
        passCancelled history :=
    passCancelled_concat history _
  unfold AsyncState.afterCancelPoll
  split_ifs with failed
  · refine
      { active := fun _ => active
        here := ⟨notNow, ?_⟩ }
    rw [sameNote, ← here.2]
    exact ⟨fun inactive => ⟨inactive, failed⟩, fun both => both.1⟩
  · refine
      { active := fun _ => active
        here := ⟨notNow, ?_⟩ }
    rw [sameNote, ← here.2]
    exact iff_of_false AsyncStatus.noConfusion (fun both => failed both.2)

theorem passDone
    (known : StatusKnown history exited state)
    (pc : state.pc = .cancelling state.xferBufNum) :
    StatusKnown (history ++ [.passDone])
      (exited ∨ ExitsPending history state .passDone)
      state.afterPass := by
  have here := known.here
  rw [pc] at here
  obtain ⟨notExited, noted⟩ := here
  have active : state.asyncStatus ≠ .inactive :=
    known.active (by rw [pc]; exact ReadAsyncPc.noConfusion)
  have exitedNow :
      (exited ∨ ExitsPending history state .passDone) ↔
        state.devLost = true ∧ passCancelled history = true := by
    simp [ExitsPending, notExited]
  have cancelledIff :
      passCancelled history = true ↔ state.nextStatus ≠ .inactive := by
    rw [Ne, noted, Bool.not_eq_false]
  unfold AsyncState.afterPass
  split_ifs with last
  · refine
      { active := fun _ => active
        here := ?_ }
    show _ ↔ state.nextStatus ≠ .inactive
    rw [exitedNow, cancelledIff]
    constructor
    · exact fun both => both.2
    · intro pending
      exact ⟨last.resolve_right pending, pending⟩
  · have pending : state.nextStatus ≠ .inactive :=
      fun inactive => last (.inr inactive)
    refine loopHead active ?_ ?_
    · rw [exitedNow]
      exact fun both => last (.inl both.1)
    · refine iff_of_false pending ?_
      rw [everCancelled_concat_iff, not_not]
      exact .inl (everCancelled_of_passCancelled (cancelledIff.mpr pending))

/-- Steps that only move on after the exit. -/
theorem afterExit
    (known : StatusKnown history exited state)
    {action : AsyncAction}
    (notExit : ¬ ExitsPending history state action)
    (pc : state.pc = .lastPolling ∨ state.pc = .freeing)
    {target : ReadAsyncPc}
    (targetIs : target = .freeing ∨ target = .finishing) :
    StatusKnown (history ++ [action])
      (exited ∨ ExitsPending history state action)
      { state with pc := target } := by
  have here := known.here
  have noted : exited ↔ state.nextStatus ≠ .inactive := by
    rcases pc with pc | pc <;> rw [pc] at here <;> exact here
  refine
    { active := fun _ => known.active ?_
      here := ?_ }
  · rcases pc with pc | pc <;> rw [pc] <;> exact ReadAsyncPc.noConfusion
  · rw [or_iff_left notExit]
    rcases targetIs with isTarget | isTarget <;> subst isTarget <;>
      exact noted

/-- A report moves nothing and notes nothing. -/
theorem deliver
    (known : StatusKnown history exited state)
    {i : Nat}
    {status : TransferStatus}
    {r : Int}
    (inEvents : state.pc.InEvents)
    (reported : AsyncState.Reported state next i) :
    StatusKnown (history ++ [.deliver i status r])
      (exited ∨ ExitsPending history state (.deliver i status r)) next := by
  have notExit : ¬ ExitsPending history state (.deliver i status r) := by
    simp [ExitsPending]
  have here := known.here
  refine
    { active := ?_
      here := ?_ }
  · rw [reported.pc]
    exact fun running => reported.active (known.active running)
  · rw [reported.pc]
    cases pc : state.pc with
    | polling =>
        rw [pc] at here
        refine ⟨by rw [or_iff_left notExit]; exact here.1, ?_⟩
        rw [reported.nextStatus, here.2, everCancelled_concat_iff]
        simp
    | cancelPolling k =>
        rw [pc] at here
        refine ⟨by rw [or_iff_left notExit]; exact here.1, ?_⟩
        rw [reported.nextStatus, reported.r, here.2, passCancelled_concat]
        rfl
    | lastPolling =>
        rw [pc] at here
        show _ ↔ next.nextStatus ≠ .inactive
        rw [or_iff_left notExit, reported.nextStatus]
        exact here
    | submitting k =>
        rw [pc] at inEvents
        exact inEvents.elim
    | cancelling k =>
        rw [pc] at inEvents
        exact inEvents.elim
    | freeing =>
        rw [pc] at inEvents
        exact inEvents.elim
    | finishing =>
        rw [pc] at inEvents
        exact inEvents.elim
    | returned =>
        rw [pc] at inEvents
        exact inEvents.elim

/-- Asking for the end does not touch `next_status`. -/
theorem cancelAsync
    (known : StatusKnown history exited state) :
    StatusKnown (history ++ [.cancelAsync])
      (exited ∨ ExitsPending history state .cancelAsync)
      state.cancelAsync := by
  have notExit : ¬ ExitsPending history state .cancelAsync := by
    simp [ExitsPending]
  have sameEver :
      EverCancelled (history ++ [.cancelAsync]) ↔ EverCancelled history := by
    simp [everCancelled_concat_iff]
  have samePass :
      passCancelled (history ++ [.cancelAsync]) = passCancelled history :=
    passCancelled_concat history _
  have here := known.here
  rcases state.cancelAsync_cases with same | ⟨running, canceling⟩
  · rw [same]
    refine
      { active := known.active
        here := ?_ }
    cases pc : state.pc <;> rw [pc] at here <;>
      simp only [StatusAt, or_iff_left notExit, sameEver, samePass] <;>
      exact here
  · rw [canceling]
    refine
      { active := fun _ => AsyncStatus.noConfusion
        here := ?_ }
    cases pc : state.pc <;> rw [pc] at here <;>
      simp only [StatusAt, or_iff_left notExit, sameEver, samePass] <;>
      first
        | exact here
        | (rw [StatusAt, running] at here
           exact here.trans (iff_of_true (by decide) (by decide)))

theorem step
    (known : StatusKnown history exited state)
    {action : AsyncAction}
    (taken : state.step action = some next) :
    StatusKnown (history ++ [action])
      (exited ∨ ExitsPending history state action) next := by
  obtain ⟨enabled, rfl⟩ := AsyncState.step_eq_some.mp taken
  cases action with
  | submitted i r =>
      exact known.submitted enabled r
  | polled r =>
      exact known.polled enabled r
  | skipped i =>
      exact known.skipped enabled.1
  | cancelled i r =>
      exact known.cancelled enabled.1 r
  | cancelPolled i =>
      exact known.cancelPolled enabled
  | passDone =>
      exact known.passDone enabled
  | lastPolled =>
      exact known.afterExit (by simp [ExitsPending]) (.inl enabled)
        (.inl rfl)
  | freed =>
      exact known.afterExit (by simp [ExitsPending]) (.inr enabled)
        (.inr rfl)
  | finished =>
      have pc : state.pc = .finishing := enabled
      have here := known.here
      rw [pc] at here
      refine
        { active := fun running => (running rfl).elim
          here := ?_ }
      show _ ↔ state.nextStatus ≠ .inactive
      rw [or_iff_left (by simp [ExitsPending])]
      exact here
  | cancelAsync =>
      exact known.cancelAsync
  | deliver i status r =>
      exact known.deliver enabled.1 (state.report_spec i status r)

/-- The status is known along every run. -/
theorem run
    {bufNum : Nat}
    {devLost : Bool}
    {xferErrors : Nat}
    {actions : List AsyncAction}
    (reached :
      PartialRun.run AsyncState.step (.enter bufNum devLost xferErrors)
        actions = some state) :
    StatusKnown actions
      (SomeStep AsyncState.step ExitsPending
        (.enter bufNum devLost xferErrors) actions) state := by
  have both :
      PartialRun.run AsyncState.step (.enter bufNum devLost xferErrors)
          actions = some state ∧
        StatusKnown actions
          (SomeStep AsyncState.step ExitsPending
            (.enter bufNum devLost xferErrors) actions) state := by
    refine invariant_history
      (fun history state =>
        PartialRun.run AsyncState.step (.enter bufNum devLost xferErrors)
            history = some state ∧
          StatusKnown history
            (SomeStep AsyncState.step ExitsPending
              (.enter bufNum devLost xferErrors) history) state)
      ?_ ?_ reached
    · exact ⟨rfl, enter _ _ _ (not_someStep_nil _ _)⟩
    · intro history before action after known taken
      refine ⟨run_concat_eq_some.mpr ⟨before, known.1, taken⟩, ?_⟩
      rw [someStep_concat_iff known.1 taken]
      exact known.2.step taken
  exact both.2

end StatusKnown

/--
When `rtlsdr_read_async` has returned, the status is inactive exactly when it
did not leave its loop while a cancelling was under way.
-/
theorem returns_inactive_iff
    {bufNum : Nat}
    {devLost : Bool}
    {xferErrors : Nat}
    {actions : List AsyncAction}
    (reached :
      run AsyncState.step (.enter bufNum devLost xferErrors) actions =
        some state)
    (returned : state.pc = .returned) :
    state.asyncStatus = .inactive ↔
      ¬ SomeStep AsyncState.step ExitsPending
        (.enter bufNum devLost xferErrors) actions := by
  have here := (StatusKnown.run reached).here
  rw [returned] at here
  exact (not_iff_comm.mp here.symm).symm

/-- A transfer is cancelled, and then handle_events fails. -/
def failedWhileCancelling : List AsyncAction :=
  [.submitted 0 0, .cancelAsync, .polled 0, .cancelled 0 0,
    .cancelPolled 0, .passDone, .polled (-4), .freed, .finished]

/-- A transfer that could not be submitted, and no other: the status is inactive. -/
theorem returns_inactive_iff_unsubmitted :
    ∃ state,
      run AsyncState.step (.enter 1 false 0)
          [.submitted 0 (-1), .polled 0, .cancelled 0 (-5), .cancelPolled 0,
            .passDone, .lastPolled, .freed, .finished] = some state ∧
        state.asyncStatus = .inactive ∧
        (state.asyncStatus = .inactive ↔
          ¬ SomeStep AsyncState.step ExitsPending (.enter 1 false 0)
            [.submitted 0 (-1), .polled 0, .cancelled 0 (-5),
              .cancelPolled 0, .passDone, .lastPolled, .freed,
              .finished]) :=
  ⟨_, rfl, by decide, returns_inactive_iff rfl rfl⟩

/-- The function returns and leaves the device in the canceling state. -/
theorem returns_canceling :
    ¬ ∀ (bufNum : Nat)
        (devLost : Bool)
        (xferErrors : Nat)
        (actions : List AsyncAction)
        (state : AsyncState),
        run AsyncState.step (.enter bufNum devLost xferErrors) actions =
          some state →
        state.pc = .returned →
        state.asyncStatus = .inactive := by
  intro claimed
  have inactive := claimed 1 false 0 failedWhileCancelling _ rfl rfl
  exact absurd inactive (by decide)

end LibRtlSdr.ReadAsync
