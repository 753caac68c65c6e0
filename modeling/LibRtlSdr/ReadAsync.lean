import Mathlib.Logic.Function.Basic
import LibRtlSdr.PartialRun

namespace LibRtlSdr.ReadAsync

open PartialRun

/-!
# Streaming: `rtlsdr_read_async`

The function submits all transfers and then handles events until it is told to
stop.  A reported transfer runs `_libusb_callback`, which submits it again.
Once `rtlsdr_cancel_async` was called, every further turn of the loop is a pass
that cancels the transfers one by one, with a call of handle_events after each;
a pass that could cancel nothing ends the function.

What libusb answers is part of the action.  A transfer that was submitted is in
flight until one of the calls of handle_events reports it; cancelling it only
asks for that.  `rtlsdr_cancel_async` may be called at any moment.
-/

/-- `enum rtlsdr_async_status`. -/
inductive AsyncStatus where
  | inactive
  | canceling
  | running
  deriving Repr, DecidableEq

/-- `enum libusb_transfer_status`. -/
inductive TransferStatus where
  | completed
  | error
  | timedOut
  | cancelled
  | stall
  | noDevice
  | overflow
  deriving Repr, DecidableEq

/-- Where `rtlsdr_read_async` stands. -/
inductive ReadAsyncPc where
  /-- About to submit transfer `i`. -/
  | submitting (i : Nat)
  /-- In the handle_events at the head of the loop. -/
  | polling
  /-- In a pass, about to look at transfer `i`. -/
  | cancelling (i : Nat)
  /-- In the handle_events after the cancelling of transfer `i`. -/
  | cancelPolling (i : Nat)
  /-- In the handle_events before the exit of a last pass. -/
  | lastPolling
  /-- About to call `_rtlsdr_free_async_buffers`. -/
  | freeing
  /-- About to store `next_status`. -/
  | finishing
  | returned
  deriving Repr, DecidableEq

/-- The thread is inside a call of handle_events. -/
def ReadAsyncPc.InEvents : ReadAsyncPc → Prop
  | .polling => True
  | .cancelPolling _ => True
  | .lastPolling => True
  | _ => False

instance : (pc : ReadAsyncPc) → Decidable pc.InEvents
  | .submitting _ => isFalse id
  | .polling => isTrue trivial
  | .cancelling _ => isFalse id
  | .cancelPolling _ => isTrue trivial
  | .lastPolling => isTrue trivial
  | .freeing => isFalse id
  | .finishing => isFalse id
  | .returned => isFalse id

/-- `LIBUSB_ERROR_INTERRUPTED` -/
def errorInterrupted : Int := -10

/-- `DEFAULT_BUF_NUMBER` -/
def defaultBufNumber : Nat := 15

/-- The device, the locals of the function, and what libusb holds. -/
structure AsyncState where
  xferBufNum : Nat
  asyncStatus : AsyncStatus
  asyncCancel : Bool
  devLost : Bool
  xferErrors : Nat
  /-- `dev->xfer[i]->status` -/
  xferStatus : Nat → TransferStatus
  /-- Transfer `i` is submitted and not reported. -/
  inFlight : Nat → Bool
  r : Int
  nextStatus : AsyncStatus
  pc : ReadAsyncPc

/-- What happens next, with the answer of libusb where there is one. -/
inductive AsyncAction where
  /-- `libusb_submit_transfer` of transfer `i` returns. -/
  | submitted (i : Nat) (r : Int)
  /-- The handle_events at the head of the loop returns. -/
  | polled (r : Int)
  /-- Transfer `i` is found to be cancelled. -/
  | skipped (i : Nat)
  /-- `libusb_cancel_transfer` of transfer `i` returns. -/
  | cancelled (i : Nat) (r : Int)
  /-- The handle_events after that returns. -/
  | cancelPolled (i : Nat)
  /-- The test after a pass. -/
  | passDone
  /-- The handle_events before the exit returns. -/
  | lastPolled
  | freed
  | finished
  /-- Another thread, or the user's callback, calls `rtlsdr_cancel_async`. -/
  | cancelAsync
  /-- Transfer `i` is reported; `r` answers the callback's submission of it. -/
  | deliver (i : Nat) (status : TransferStatus) (r : Int)
  deriving Repr, DecidableEq

namespace AsyncState

/-- From the entry, with `async_status` inactive, to the first submission. -/
def enter
    (bufNum : Nat)
    (devLost : Bool)
    (xferErrors : Nat) :
    AsyncState where
  xferBufNum := if 0 < bufNum then bufNum else defaultBufNumber
  asyncStatus := .running
  asyncCancel := false
  devLost := devLost
  xferErrors := xferErrors
  xferStatus := fun _ => .completed
  inFlight := fun _ => false
  r := 0
  nextStatus := .inactive
  pc := .submitting 0

/-- `rtlsdr_cancel_async` -/
def cancelAsync (state : AsyncState) : AsyncState :=
  if state.asyncStatus = .running then
    { state with asyncStatus := .canceling, asyncCancel := true }
  else
    state

/-- `_libusb_callback` for transfer `i`, where submitting it again answers `r`. -/
def libusbCallback
    (state : AsyncState)
    (i : Nat)
    (r : Int) :
    AsyncState :=
  if state.xferStatus i = .completed then
    { state with
      inFlight := Function.update state.inFlight i (decide (0 ≤ r))
      xferErrors := 0 }
  else if state.xferStatus i ≠ .cancelled then
    let counted :=
      if state.xferStatus i = .error then
        { state with xferErrors := state.xferErrors + 1 }
      else
        state
    if counted.xferBufNum ≤ counted.xferErrors ∨
        counted.xferStatus i = .noDevice then
      cancelAsync { counted with devLost := true }
    else
      counted
  else
    state

/-- libusb takes the transfer back, sets its status and runs the callback. -/
def report
    (state : AsyncState)
    (i : Nat)
    (status : TransferStatus)
    (r : Int) :
    AsyncState :=
  libusbCallback
    { state with
      inFlight := Function.update state.inFlight i false
      xferStatus := Function.update state.xferStatus i status }
    i r

/-- The test of the loop. -/
def loopHead (state : AsyncState) : AsyncState :=
  { state with
    pc := if state.asyncStatus = .inactive then .freeing else .polling }

/-- After `libusb_submit_transfer`. -/
def afterSubmit
    (state : AsyncState)
    (i : Nat)
    (r : Int) :
    AsyncState :=
  if r < 0 then
    loopHead { state with r := r, asyncStatus := .canceling }
  else
    let submitted :=
      { state with
        r := r
        inFlight := Function.update state.inFlight i true }
    if i + 1 < state.xferBufNum then
      { submitted with pc := .submitting (i + 1) }
    else
      loopHead submitted

/-- After the handle_events at the head of the loop. -/
def afterPoll
    (state : AsyncState)
    (r : Int) :
    AsyncState :=
  if r < 0 then
    if r = errorInterrupted then
      loopHead { state with r := r }
    else
      { state with r := r, pc := .freeing }
  else if state.asyncStatus = .canceling then
    { state with
      r := r
      nextStatus := .inactive
      pc := .cancelling 0 }
  else
    loopHead { state with r := r }

/-- After the handle_events that follows the cancelling of transfer `i`. -/
def afterCancelPoll
    (state : AsyncState)
    (i : Nat) :
    AsyncState :=
  if state.r < 0 then
    { state with pc := .cancelling (i + 1) }
  else
    { state with
      nextStatus := .canceling
      pc := .cancelling (i + 1) }

/-- After a pass over all transfers. -/
def afterPass (state : AsyncState) : AsyncState :=
  if state.devLost = true ∨ state.nextStatus = .inactive then
    { state with pc := .lastPolling }
  else
    loopHead state

/-- When a step can be taken. -/
def Enabled (state : AsyncState) : AsyncAction → Prop
  | .submitted i _ => state.pc = .submitting i
  | .polled _ => state.pc = .polling
  | .skipped i =>
      state.pc = .cancelling i ∧ i < state.xferBufNum ∧
        state.xferStatus i = .cancelled
  | .cancelled i _ =>
      state.pc = .cancelling i ∧ i < state.xferBufNum ∧
        state.xferStatus i ≠ .cancelled
  | .cancelPolled i => state.pc = .cancelPolling i
  | .passDone => state.pc = .cancelling state.xferBufNum
  | .lastPolled => state.pc = .lastPolling
  | .freed => state.pc = .freeing
  | .finished => state.pc = .finishing
  | .cancelAsync => True
  | .deliver i _ _ => state.pc.InEvents ∧ state.inFlight i = true

instance (state : AsyncState) :
    (action : AsyncAction) → Decidable (state.Enabled action)
  | .submitted _ _ => inferInstanceAs (Decidable (_ = _))
  | .polled _ => inferInstanceAs (Decidable (_ = _))
  | .skipped _ => inferInstanceAs (Decidable (_ ∧ _))
  | .cancelled _ _ => inferInstanceAs (Decidable (_ ∧ _))
  | .cancelPolled _ => inferInstanceAs (Decidable (_ = _))
  | .passDone => inferInstanceAs (Decidable (_ = _))
  | .lastPolled => inferInstanceAs (Decidable (_ = _))
  | .freed => inferInstanceAs (Decidable (_ = _))
  | .finished => inferInstanceAs (Decidable (_ = _))
  | .cancelAsync => isTrue trivial
  | .deliver _ _ _ => inferInstanceAs (Decidable (_ ∧ _))

/-- What a step does. -/
def effect (state : AsyncState) : AsyncAction → AsyncState
  | .submitted i r => state.afterSubmit i r
  | .polled r => state.afterPoll r
  | .skipped i => { state with pc := .cancelling (i + 1) }
  | .cancelled i r => { state with r := r, pc := .cancelPolling i }
  | .cancelPolled i => state.afterCancelPoll i
  | .passDone => state.afterPass
  | .lastPolled => { state with pc := .freeing }
  | .freed => { state with pc := .finishing }
  | .finished =>
      { state with asyncStatus := state.nextStatus, pc := .returned }
  | .cancelAsync => state.cancelAsync
  | .deliver i status r => state.report i status r

/-- One step. -/
def step
    (state : AsyncState)
    (action : AsyncAction) :
    Option AsyncState :=
  if state.Enabled action then
    some (state.effect action)
  else
    none

theorem step_eq_some
    {state next : AsyncState}
    {action : AsyncAction} :
    state.step action = some next ↔
      state.Enabled action ∧ state.effect action = next := by
  simp [step]

/-! ## What a report changes -/

/-- `rtlsdr_cancel_async` touches the two fields only. -/
theorem cancelAsync_cases (state : AsyncState) :
    state.cancelAsync = state ∨
      state.asyncStatus = .running ∧
        state.cancelAsync =
          { state with asyncStatus := .canceling, asyncCancel := true } := by
  unfold cancelAsync
  split_ifs with running
  · exact .inr ⟨running, rfl⟩
  · exact .inl rfl

/--
What a report of transfer `i` leaves alone: where the function stands, what it
has noted, and the other transfers.  A cancelled transfer is not submitted
again.
-/
structure Reported
    (state next : AsyncState)
    (i : Nat) : Prop where
  pc : next.pc = state.pc
  r : next.r = state.r
  nextStatus : next.nextStatus = state.nextStatus
  xferBufNum : next.xferBufNum = state.xferBufNum
  active : state.asyncStatus ≠ .inactive → next.asyncStatus ≠ .inactive
  devLost : state.devLost = true → next.devLost = true
  others : ∀ j, j ≠ i → next.inFlight j = state.inFlight j
  othersStatus : ∀ j, j ≠ i → next.xferStatus j = state.xferStatus j
  cancelled : next.xferStatus i = .cancelled → next.inFlight i = false

/-- Calling `rtlsdr_cancel_async` from the callback changes nothing of that. -/
theorem Reported.cancelAsync
    {state next : AsyncState}
    {i : Nat}
    (reported : Reported state next i) :
    Reported state next.cancelAsync i := by
  rcases next.cancelAsync_cases with same | ⟨_, canceling⟩
  · rw [same]
    exact reported
  · rw [canceling]
    exact
      { reported with
        active := by
          intro _
          exact AsyncStatus.noConfusion }

theorem report_spec
    (state : AsyncState)
    (i : Nat)
    (status : TransferStatus)
    (r : Int) :
    Reported state (state.report i status r) i := by
  -- What holds once libusb has taken the transfer back.
  have taken
      (devLost : Bool)
      (errors : Nat)
      (kept : state.devLost = true → devLost = true) :
      Reported state
        { state with
          inFlight := Function.update state.inFlight i false
          xferStatus := Function.update state.xferStatus i status
          devLost := devLost
          xferErrors := errors } i :=
    { pc := rfl
      r := rfl
      nextStatus := rfl
      xferBufNum := rfl
      active := id
      devLost := kept
      others := fun j differs => Function.update_of_ne differs ..
      othersStatus := fun j differs => Function.update_of_ne differs ..
      cancelled := fun _ => Function.update_self .. }
  have statusIs :
      Function.update state.xferStatus i status i = status :=
    Function.update_self ..
  simp only [report, libusbCallback, statusIs]
  split_ifs with completed cancelled error lost lost
  · exact
      { pc := rfl
        r := rfl
        nextStatus := rfl
        xferBufNum := rfl
        active := id
        devLost := id
        others := by
          intro j differs
          simp [differs]
        othersStatus := fun j differs => Function.update_of_ne differs ..
        cancelled := by
          intro isCancelled
          have isStatus : status = .cancelled :=
            statusIs.symm.trans isCancelled
          exact nomatch completed.symm.trans isStatus }
  · exact (taken true _ (fun _ => rfl)).cancelAsync
  · exact taken state.devLost _ id
  · exact (taken true _ (fun _ => rfl)).cancelAsync
  · exact taken state.devLost _ id
  · exact taken state.devLost _ id

end AsyncState

end LibRtlSdr.ReadAsync
