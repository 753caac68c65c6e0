import LibRtlSdr.HpsdrFrameHandshake

namespace LibRtlSdr.Hpsdr

open PartialRun

/-!
# Starting and stopping the sender thread

The main thread answers a STOP by clearing `enable_thread` and waiting until
`active_thread` is clear.  It answers a START the same way, except that it first
raises all flags to get an old `handler_ep6` out of its wait; then it sets both
variables and creates a new `handler_ep6`.  An old handler that leaves clears
`active_thread` and only after that `running`, so it can still have one step to
take when the next one has started.

Every access of `enable_thread`, `active_thread` and `running` is a step of its
own, and so is every section under a lock.  The handlers are numbered in the
order in which they are created.
-/

/-- Where a `handler_ep6` thread stands. -/
inductive HandlerPc where
  /-- Not created yet. -/
  | absent
  /-- About to test `enable_thread` at the head of the loop. -/
  | top
  /-- About to set `running`. -/
  | starting
  /-- Waiting until the flags are complete or `enable_thread` is clear. -/
  | waiting
  /-- Holds `send_lock`, about to send the frame. -/
  | holding
  /-- The frame is sent, about to clear the flags. -/
  | sent
  /-- Out of the loop, about to clear `active_thread`. -/
  | leaving
  /-- About to clear `running`. -/
  | stopping
  /-- The thread has ended. -/
  | done
  deriving Repr, DecidableEq

namespace HandlerPc

/-- The thread exists and has not cleared `active_thread`. -/
def Live (pc : HandlerPc) : Prop :=
  pc ≠ .absent ∧ pc ≠ .stopping ∧ pc ≠ .done

instance (pc : HandlerPc) : Decidable pc.Live :=
  inferInstanceAs (Decidable (_ ∧ _))

/-- The thread has passed the test of `enable_thread` and will clear the flags. -/
def InLoop (pc : HandlerPc) : Prop :=
  pc = .starting ∨ pc = .waiting ∨ pc = .holding ∨ pc = .sent

instance (pc : HandlerPc) : Decidable pc.InLoop :=
  inferInstanceAs (Decidable (_ ∨ _))

theorem InLoop.live {pc : HandlerPc} (inLoop : pc.InLoop) : pc.Live := by
  rcases inLoop with here | here | here | here <;> subst here <;> decide

end HandlerPc

/-- Where the main thread stands. -/
inductive MainPc where
  /-- Waiting for a datagram. -/
  | idle
  /-- STOP: waiting until `active_thread` is clear. -/
  | stopWaiting
  /-- START: about to raise all flags under `send_lock`. -/
  | forcing
  /-- START: waiting until `active_thread` is clear. -/
  | startWaiting
  /-- START: about to set `enable_thread`. -/
  | enabling
  /-- START: about to set `active_thread`. -/
  | activating
  /-- START: about to create the thread. -/
  | creating
  deriving Repr, DecidableEq

/-- The shared variables and the program counters. -/
structure Session (count : Nat) where
  enableThread : Bool
  activeThread : Bool
  running : Bool
  sendFlags : Nat
  mainPc : MainPc
  /-- How many `handler_ep6` threads were created. -/
  started : Nat
  handlerPc : Nat → HandlerPc
  loadPc : Fin count → LoadPc

/-- The steps of the main thread, of the handlers, and of the receivers. -/
inductive SessionAction (count : Nat) where
  /-- Main: a STOP has arrived, clear `enable_thread`. -/
  | stop
  /-- Main: a START has arrived, clear `enable_thread`. -/
  | start
  /-- Main: raise all flags under `send_lock`. -/
  | force
  /-- Main: see that `active_thread` is clear. -/
  | observe
  /-- Main: set `enable_thread`. -/
  | enable
  /-- Main: set `active_thread`. -/
  | activate
  /-- Main: create the next handler. -/
  | create
  /-- Handler: test `enable_thread` at the head of the loop. -/
  | check (handler : Nat)
  /-- Handler: set `running`. -/
  | markRunning (handler : Nat)
  /-- Handler: the wait is over. -/
  | release (handler : Nat)
  /-- Handler: `sendto`, and give `send_lock` back. -/
  | send (handler : Nat)
  /-- Handler: clear the flags. -/
  | clear (handler : Nat)
  /-- Handler: clear `active_thread`. -/
  | markInactive (handler : Nat)
  /-- Handler: clear `running`. -/
  | markStopped (handler : Nat)
  /-- Receiver: `load_packet` under `send_lock`. -/
  | load (rcvr : Fin count)
  /-- Receiver: return from `load_packet`. -/
  | leave (rcvr : Fin count)
  deriving Repr, DecidableEq

namespace Session

variable {count : Nat}

/-- `mcb.rcvrs_mask` with `count` active receivers. -/
def mask (count : Nat) : Nat :=
  FlagWord.wordOf (List.range count)

/-- Before the first START. -/
def initial : Session count where
  enableThread := false
  activeThread := false
  running := false
  sendFlags := 0
  mainPc := .idle
  started := 0
  handlerPc := fun _ => .absent
  loadPc := fun _ => .outside

/-- No handler holds `send_lock` across its steps. -/
def SendLockFree (session : Session count) : Prop :=
  ∀ handler < session.started, session.handlerPc handler ≠ .holding

instance (session : Session count) : Decidable session.SendLockFree :=
  inferInstanceAs (Decidable (∀ handler < session.started, _))

/-- No handler holds `done_send_lock` across its steps. -/
def DoneSendLockFree (session : Session count) : Prop :=
  ∀ handler < session.started, session.handlerPc handler ≠ .sent

instance (session : Session count) : Decidable session.DoneSendLockFree :=
  inferInstanceAs (Decidable (∀ handler < session.started, _))

/-- Move a handler. -/
def setHandler
    (session : Session count)
    (handler : Nat)
    (pc : HandlerPc) :
    Session count :=
  { session with
    handlerPc := Function.update session.handlerPc handler pc }

/-- Move a receiver. -/
def setLoad
    (session : Session count)
    (rcvr : Fin count)
    (pc : LoadPc) :
    Session count :=
  { session with
    loadPc := Function.update session.loadPc rcvr pc }

/-- When a step can be taken. -/
def Enabled (session : Session count) : SessionAction count → Prop
  | .stop => session.mainPc = .idle
  | .start => session.mainPc = .idle
  | .force => session.mainPc = .forcing ∧ session.SendLockFree
  | .observe =>
      (session.mainPc = .stopWaiting ∨ session.mainPc = .startWaiting) ∧
        session.activeThread = false
  | .enable => session.mainPc = .enabling
  | .activate => session.mainPc = .activating
  | .create => session.mainPc = .creating
  | .check handler => session.handlerPc handler = .top
  | .markRunning handler => session.handlerPc handler = .starting
  | .release handler =>
      session.handlerPc handler = .waiting ∧ session.SendLockFree ∧
        (session.sendFlags = mask count ∨ session.enableThread = false)
  | .send handler =>
      session.handlerPc handler = .holding ∧ session.DoneSendLockFree
  | .clear handler => session.handlerPc handler = .sent
  | .markInactive handler => session.handlerPc handler = .leaving
  | .markStopped handler => session.handlerPc handler = .stopping
  | .load rcvr =>
      session.loadPc rcvr = .outside ∧ session.SendLockFree
  | .leave rcvr =>
      session.loadPc rcvr = .waiting ∧ session.DoneSendLockFree ∧
        session.sendFlags &&& 1 <<< rcvr.val = 0

instance (session : Session count) :
    (action : SessionAction count) → Decidable (session.Enabled action)
  | .stop => inferInstanceAs (Decidable (_ = _))
  | .start => inferInstanceAs (Decidable (_ = _))
  | .force => inferInstanceAs (Decidable (_ ∧ _))
  | .observe => inferInstanceAs (Decidable (_ ∧ _))
  | .enable => inferInstanceAs (Decidable (_ = _))
  | .activate => inferInstanceAs (Decidable (_ = _))
  | .create => inferInstanceAs (Decidable (_ = _))
  | .check _ => inferInstanceAs (Decidable (_ = _))
  | .markRunning _ => inferInstanceAs (Decidable (_ = _))
  | .release _ => inferInstanceAs (Decidable (_ ∧ _))
  | .send _ => inferInstanceAs (Decidable (_ ∧ _))
  | .clear _ => inferInstanceAs (Decidable (_ = _))
  | .markInactive _ => inferInstanceAs (Decidable (_ = _))
  | .markStopped _ => inferInstanceAs (Decidable (_ = _))
  | .load _ => inferInstanceAs (Decidable (_ ∧ _))
  | .leave _ => inferInstanceAs (Decidable (_ ∧ _))

/-- What a step does. -/
def effect
    (session : Session count) :
    SessionAction count → Session count
  | .stop =>
      { session with enableThread := false, mainPc := .stopWaiting }
  | .start =>
      { session with enableThread := false, mainPc := .forcing }
  | .force =>
      { session with sendFlags := mask count, mainPc := .startWaiting }
  | .observe =>
      { session with
        mainPc :=
          if session.mainPc = .stopWaiting then .idle else .enabling }
  | .enable =>
      { session with enableThread := true, mainPc := .activating }
  | .activate =>
      { session with activeThread := true, mainPc := .creating }
  | .create =>
      { session.setHandler session.started .top with
        started := session.started + 1
        mainPc := .idle }
  | .check handler =>
      session.setHandler handler
        (if session.enableThread then .starting else .leaving)
  | .markRunning handler =>
      { session.setHandler handler .waiting with running := true }
  | .release handler =>
      session.setHandler handler .holding
  | .send handler =>
      session.setHandler handler .sent
  | .clear handler =>
      { session.setHandler handler .top with sendFlags := 0 }
  | .markInactive handler =>
      { session.setHandler handler .stopping with activeThread := false }
  | .markStopped handler =>
      { session.setHandler handler .done with running := false }
  | .load rcvr =>
      { session.setLoad rcvr .waiting with
        sendFlags := session.sendFlags ||| 1 <<< rcvr.val }
  | .leave rcvr =>
      session.setLoad rcvr .outside

/-- One step. -/
def step
    (session : Session count)
    (action : SessionAction count) :
    Option (Session count) :=
  if session.Enabled action then
    some (session.effect action)
  else
    none

theorem step_eq_some
    {session next : Session count}
    {action : SessionAction count} :
    session.step action = some next ↔
      session.Enabled action ∧ session.effect action = next := by
  simp [step]

/-- A handler that is moved stands where it was moved to. -/
@[simp] theorem setHandler_handlerPc_self
    (session : Session count)
    (handler : Nat)
    (pc : HandlerPc) :
    (session.setHandler handler pc).handlerPc handler = pc :=
  Function.update_self ..

/-- The other handlers stay where they are. -/
theorem setHandler_handlerPc_of_ne
    {handler other : Nat}
    (differs : other ≠ handler)
    (session : Session count)
    (pc : HandlerPc) :
    (session.setHandler handler pc).handlerPc other =
      session.handlerPc other :=
  Function.update_of_ne differs ..

end Session

/-! ## What holds in every reachable state -/

section Sane

variable {count : Nat} {session next : Session count}

/--
At most one handler is live, and `active_thread` says whether there is one,
except while the main thread is about to create it.
-/
structure SessionSane (session : Session count) : Prop where
  absent :
    ∀ handler, session.started ≤ handler →
      session.handlerPc handler = .absent
  active_of_live :
    ∀ handler, (session.handlerPc handler).Live →
      session.activeThread = true
  live_of_active :
    session.activeThread = true →
      session.mainPc = .creating ∨
        ∃ handler, (session.handlerPc handler).Live
  unique :
    ∀ first second, (session.handlerPc first).Live →
      (session.handlerPc second).Live → first = second
  noneLive :
    session.mainPc = .enabling ∨ session.mainPc = .activating ∨
      session.mainPc = .creating →
      ∀ handler, ¬ (session.handlerPc handler).Live
  creating :
    session.mainPc = .creating → session.activeThread = true
  disabled :
    session.mainPc = .stopWaiting ∨ session.mainPc = .forcing ∨
      session.mainPc = .startWaiting ∨ session.mainPc = .enabling →
      session.enableThread = false
  enabled :
    session.mainPc = .activating ∨ session.mainPc = .creating →
      session.enableThread = true

namespace SessionSane

theorem initial : SessionSane (Session.initial : Session count) where
  absent := by
    intro handler _
    rfl
  active_of_live := by
    intro handler live
    exact (live.1 rfl).elim
  live_of_active := by
    intro active
    exact (Bool.false_ne_true active).elim
  unique := by
    intro first second live _
    exact (live.1 rfl).elim
  noneLive := by
    intro _ handler live
    exact live.1 rfl
  creating := by
    intro here
    exact nomatch here
  disabled := by
    intro _
    rfl
  enabled := by
    intro here
    rcases here with here | here <;> exact nomatch here

/-- A live handler was created. -/
theorem created
    (sane : SessionSane session)
    {handler : Nat}
    (live : (session.handlerPc handler).Live) :
    handler < session.started := by
  by_contra notCreated
  exact live.1 (sane.absent handler (Nat.le_of_not_lt notCreated))

/-- While one handler is live, another is not. -/
theorem not_live
    (sane : SessionSane session)
    {handler other : Nat}
    (live : (session.handlerPc handler).Live)
    (differs : other ≠ handler) :
    ¬ (session.handlerPc other).Live :=
  fun otherLive => differs (sane.unique other handler otherLive live)

/-- A live handler that is not in the critical section leaves `send_lock` free. -/
theorem sendLockFree
    (sane : SessionSane session)
    {handler : Nat}
    (live : (session.handlerPc handler).Live)
    (elsewhere : session.handlerPc handler ≠ .holding) :
    session.SendLockFree := by
  intro other _ holding
  by_cases same : other = handler
  · subst same
    exact elsewhere holding
  · refine sane.not_live live same ?_
    rw [holding]
    decide

/-- A live handler that has cleared the flags leaves `done_send_lock` free. -/
theorem doneSendLockFree
    (sane : SessionSane session)
    {handler : Nat}
    (live : (session.handlerPc handler).Live)
    (elsewhere : session.handlerPc handler ≠ .sent) :
    session.DoneSendLockFree := by
  intro other _ sent
  by_cases same : other = handler
  · subst same
    exact elsewhere sent
  · refine sane.not_live live same ?_
    rw [sent]
    decide

/-- Steps that keep who is live, and what the main thread sees, keep sanity. -/
theorem congr
    (sane : SessionSane session)
    (startedEq : next.started = session.started)
    (activeEq : next.activeThread = session.activeThread)
    (enableEq : next.enableThread = session.enableThread)
    (mainEq : next.mainPc = session.mainPc)
    (absentKept :
      ∀ handler, session.handlerPc handler = .absent →
        next.handlerPc handler = .absent)
    (liveIff :
      ∀ handler, (next.handlerPc handler).Live ↔
        (session.handlerPc handler).Live) :
    SessionSane next where
  absent := by
    intro handler beyond
    rw [startedEq] at beyond
    exact absentKept handler (sane.absent handler beyond)
  active_of_live := by
    intro handler live
    rw [activeEq]
    exact sane.active_of_live handler ((liveIff handler).mp live)
  live_of_active := by
    intro active
    rw [activeEq] at active
    rw [mainEq]
    rcases sane.live_of_active active with creating | ⟨handler, live⟩
    · exact .inl creating
    · exact .inr ⟨handler, (liveIff handler).mpr live⟩
  unique := by
    intro first second firstLive secondLive
    exact sane.unique first second
      ((liveIff first).mp firstLive) ((liveIff second).mp secondLive)
  noneLive := by
    intro here handler live
    rw [mainEq] at here
    exact sane.noneLive here handler ((liveIff handler).mp live)
  creating := by
    intro here
    rw [mainEq] at here
    rw [activeEq]
    exact sane.creating here
  disabled := by
    intro here
    rw [mainEq] at here
    rw [enableEq]
    exact sane.disabled here
  enabled := by
    intro here
    rw [mainEq] at here
    rw [enableEq]
    exact sane.enabled here

/-- A handler that stays live, or stays ended, keeps sanity where it moves. -/
theorem move
    (sane : SessionSane session)
    {handler : Nat}
    {pc : HandlerPc}
    (exists_ : session.handlerPc handler ≠ .absent)
    (sameLife : pc.Live ↔ (session.handlerPc handler).Live)
    (flags : Nat)
    (run : Bool) :
    SessionSane
      { session.setHandler handler pc with
        sendFlags := flags
        running := run } := by
  refine sane.congr rfl rfl rfl rfl ?_ ?_
  · intro other absent
    have differs : other ≠ handler := by
      intro same
      subst same
      exact exists_ absent
    exact (Session.setHandler_handlerPc_of_ne differs session pc).trans absent
  · intro other
    by_cases same : other = handler
    · subst same
      simpa using sameLife
    · rw [Session.setHandler_handlerPc_of_ne same]

/-- The main thread moves and touches neither `active_thread` nor a handler. -/
theorem moveMain
    (sane : SessionSane session)
    {pc : MainPc}
    {enable : Bool}
    (flags : Nat)
    (wasNotCreating : session.mainPc ≠ .creating)
    (notCreating : pc ≠ .creating)
    (noneLive :
      pc = .enabling ∨ pc = .activating →
        ∀ handler, ¬ (session.handlerPc handler).Live)
    (disabled :
      pc = .stopWaiting ∨ pc = .forcing ∨ pc = .startWaiting ∨
        pc = .enabling → enable = false)
    (enabled : pc = .activating → enable = true) :
    SessionSane
      { session with
        mainPc := pc
        enableThread := enable
        sendFlags := flags } where
  absent := sane.absent
  active_of_live := sane.active_of_live
  live_of_active := by
    intro active
    rcases sane.live_of_active active with creating | live
    · exact (wasNotCreating creating).elim
    · exact .inr live
  unique := sane.unique
  noneLive := by
    intro here
    rcases here with here | here | here
    · exact noneLive (.inl here)
    · exact noneLive (.inr here)
    · exact (notCreating here).elim
  creating := fun here => (notCreating here).elim
  disabled := disabled
  enabled := by
    intro here
    rcases here with here | here
    · exact enabled here
    · exact (notCreating here).elim

/-- Setting `active_thread` before the thread is created keeps sanity. -/
theorem activate
    (sane : SessionSane session)
    (here : session.mainPc = .activating) :
    SessionSane
      { session with activeThread := true, mainPc := .creating } where
  absent := sane.absent
  active_of_live := by
    intro _ _
    rfl
  live_of_active := by
    intro _
    exact .inl rfl
  unique := sane.unique
  noneLive := by
    intro _
    exact sane.noneLive (.inr (.inl here))
  creating := by
    intro _
    rfl
  disabled := by
    intro pc
    rcases pc with pc | pc | pc | pc <;> exact nomatch pc
  enabled := by
    intro _
    exact sane.enabled (.inl here)

/-- The thread that is created becomes the one that is live. -/
theorem create
    (sane : SessionSane session)
    (here : session.mainPc = .creating) :
    SessionSane
      { session.setHandler session.started .top with
        started := session.started + 1
        mainPc := .idle } := by
  have noneLive := sane.noneLive (.inr (.inr here))
  have onlyNew :
      ∀ handler,
        ((session.setHandler session.started .top).handlerPc handler).Live →
          handler = session.started := by
    intro handler live
    by_contra differs
    rw [Session.setHandler_handlerPc_of_ne differs] at live
    exact noneLive handler live
  constructor
  · intro handler beyond
    have differs : handler ≠ session.started := by
      intro same
      subst same
      exact Nat.not_succ_le_self _ beyond
    exact (Session.setHandler_handlerPc_of_ne differs session .top).trans
      (sane.absent handler (Nat.le_of_succ_le beyond))
  · intro handler _
    exact sane.creating here
  · intro _
    refine .inr ⟨session.started, ?_⟩
    simp [HandlerPc.Live]
  · intro first second firstLive secondLive
    exact (onlyNew first firstLive).trans (onlyNew second secondLive).symm
  · intro pc
    rcases pc with pc | pc | pc <;> exact nomatch pc
  · intro pc
    exact nomatch pc
  · intro pc
    rcases pc with pc | pc | pc | pc <;> exact nomatch pc
  · intro pc
    rcases pc with pc | pc <;> exact nomatch pc

/-- Once the live handler clears `active_thread`, no handler is live. -/
theorem markInactive
    (sane : SessionSane session)
    {handler : Nat}
    (here : session.handlerPc handler = .leaving) :
    SessionSane
      { session.setHandler handler .stopping with activeThread := false } := by
  have live : (session.handlerPc handler).Live := by
    rw [here]
    decide
  have noneLive :
      ∀ other,
        ¬ ((session.setHandler handler .stopping).handlerPc other).Live := by
    intro other
    by_cases same : other = handler
    · subst same
      simp [HandlerPc.Live]
    · rw [Session.setHandler_handlerPc_of_ne same]
      exact sane.not_live live same
  constructor
  · intro other beyond
    have differs : other ≠ handler := by
      intro same
      subst same
      exact (sane.created live).not_ge beyond
    exact (Session.setHandler_handlerPc_of_ne differs session .stopping).trans
      (sane.absent other beyond)
  · intro other otherLive
    exact (noneLive other otherLive).elim
  · intro active
    exact (Bool.false_ne_true active).elim
  · intro first _ firstLive _
    exact (noneLive first firstLive).elim
  · intro _
    exact noneLive
  · intro pc
    exact (sane.noneLive (.inr (.inr pc)) handler live).elim
  · exact sane.disabled
  · exact sane.enabled

theorem step
    (sane : SessionSane session)
    {action : SessionAction count}
    (taken : session.step action = some next) :
    SessionSane next := by
  obtain ⟨enabled, rfl⟩ := Session.step_eq_some.mp taken
  cases action with
  | stop =>
      exact sane.moveMain session.sendFlags
        (by rw [show session.mainPc = .idle from enabled]; decide)
        (by decide) (by simp) (by simp) (by simp)
  | start =>
      exact sane.moveMain session.sendFlags
        (by rw [show session.mainPc = .idle from enabled]; decide)
        (by decide) (by simp) (by simp) (by simp)
  | force =>
      exact sane.moveMain (Session.mask count)
        (by rw [enabled.1]; decide) (by decide) (by simp)
        (fun _ => sane.disabled (.inr (.inl enabled.1))) (by simp)
  | observe =>
      have noneLive :
          ∀ handler, ¬ (session.handlerPc handler).Live := by
        intro handler live
        exact Bool.false_ne_true
          (enabled.2.symm.trans (sane.active_of_live handler live))
      rcases enabled.1 with here | here
      · simp only [Session.effect, here, if_true]
        exact sane.moveMain session.sendFlags
          (by rw [here]; decide) (by decide) (by simp) (by simp) (by simp)
      · have waiting : session.mainPc ≠ .stopWaiting := by
          rw [here]
          decide
        simp only [Session.effect, waiting, if_false]
        exact sane.moveMain session.sendFlags
          (by rw [here]; decide) (by decide) (fun _ => noneLive)
          (fun _ => sane.disabled (.inr (.inr (.inl here)))) (by simp)
  | enable =>
      have here : session.mainPc = .enabling := enabled
      exact sane.moveMain session.sendFlags
        (by rw [here]; decide) (by decide)
        (fun _ => sane.noneLive (.inl here)) (by simp) (by simp)
  | activate =>
      exact sane.activate enabled
  | create =>
      exact sane.create enabled
  | check handler =>
      have here : session.handlerPc handler = .top := enabled
      refine sane.move (by rw [here]; decide) ?_
        session.sendFlags session.running
      rw [here]
      cases session.enableThread <;> decide
  | markRunning handler =>
      have here : session.handlerPc handler = .starting := enabled
      exact sane.move (by rw [here]; decide) (by rw [here]; decide)
        session.sendFlags true
  | release handler =>
      exact sane.move (by rw [enabled.1]; decide) (by rw [enabled.1]; decide)
        session.sendFlags session.running
  | send handler =>
      exact sane.move (by rw [enabled.1]; decide) (by rw [enabled.1]; decide)
        session.sendFlags session.running
  | clear handler =>
      have here : session.handlerPc handler = .sent := enabled
      exact sane.move (by rw [here]; decide) (by rw [here]; decide)
        0 session.running
  | markInactive handler =>
      exact sane.markInactive enabled
  | markStopped handler =>
      have here : session.handlerPc handler = .stopping := enabled
      exact sane.move (by rw [here]; decide) (by rw [here]; decide)
        session.sendFlags false
  | load rcvr =>
      exact sane.congr rfl rfl rfl rfl (fun _ => id) (fun _ => Iff.rfl)
  | leave rcvr =>
      exact sane.congr rfl rfl rfl rfl (fun _ => id) (fun _ => Iff.rfl)

/-- Every reachable state is sane. -/
theorem run
    {actions : List (SessionAction count)}
    (reached :
      PartialRun.run Session.step Session.initial actions = some session) :
    SessionSane session :=
  PartialRun.invariant SessionSane (fun sane taken => sane.step taken)
    initial reached

end SessionSane

end Sane

/-! ## Is `running` set while a handler waits for samples -/

section Running

variable {count : Nat} {session next : Session count}

/--
The handler of the latest START waits with `enable_thread` set only while
`running` is set; `rtlsdr_callback` drops all samples otherwise.
-/
def HandlerFed (session : Session count) : Prop :=
  ∀ handler,
    session.started = handler + 1 →
    session.handlerPc handler = .waiting →
    session.enableThread = true →
    session.running = true

/-- No handler clears `running` while the one of the latest START waits. -/
def StopsInTime
    (session : Session count)
    (action : SessionAction count) : Prop :=
  ∀ old handler,
    action = .markStopped old →
    session.started = handler + 1 →
    session.handlerPc handler = .waiting →
    session.enableThread = false

/-- Only a step that clears `running` can starve a waiting handler. -/
theorem handlerFed_of_kept
    (fed : HandlerFed session)
    (startedEq : next.started = session.started)
    (waitingKept :
      ∀ handler, next.handlerPc handler = .waiting →
        session.handlerPc handler = .waiting)
    (enableKept :
      next.enableThread = true → session.enableThread = true)
    (runningKept : session.running = true → next.running = true) :
    HandlerFed next := by
  intro handler latest waiting enabled
  rw [startedEq] at latest
  exact runningKept
    (fed handler latest (waitingKept handler waiting) (enableKept enabled))

/-- A handler that moves, but not into its wait, leaves who waits as it is. -/
theorem waiting_of_setHandler
    {handler other : Nat}
    {pc : HandlerPc}
    (elsewhere : pc ≠ .waiting)
    (waiting : (session.setHandler handler pc).handlerPc other = .waiting) :
    session.handlerPc other = .waiting := by
  by_cases same : other = handler
  · subst same
    rw [Session.setHandler_handlerPc_self] at waiting
    exact (elsewhere waiting).elim
  · rw [Session.setHandler_handlerPc_of_ne same] at waiting
    exact waiting

/-- A waiting handler is fed after a step exactly when the step stops in time. -/
theorem handlerFed_step_iff
    (sane : SessionSane session)
    (fed : HandlerFed session)
    {action : SessionAction count}
    (taken : session.step action = some next) :
    HandlerFed next ↔ StopsInTime session action := by
  obtain ⟨enabled, rfl⟩ := Session.step_eq_some.mp taken
  have inTime
      (notStop : ∀ old, action ≠ .markStopped old) :
      StopsInTime session action :=
    fun old _ isStop _ _ => (notStop old isStop).elim
  cases action with
  | stop =>
      refine iff_of_true ?_ (inTime (fun _ => by simp))
      intro _ _ _ enableThread
      exact (Bool.false_ne_true enableThread).elim
  | start =>
      refine iff_of_true ?_ (inTime (fun _ => by simp))
      intro _ _ _ enableThread
      exact (Bool.false_ne_true enableThread).elim
  | force =>
      exact iff_of_true
        (handlerFed_of_kept fed rfl (fun _ => id) id id)
        (inTime (fun _ => by simp))
  | observe =>
      exact iff_of_true
        (handlerFed_of_kept fed rfl (fun _ => id) id id)
        (inTime (fun _ => by simp))
  | enable =>
      refine iff_of_true ?_ (inTime (fun _ => by simp))
      intro handler _ waiting _
      have here : session.handlerPc handler = .waiting := waiting
      refine (sane.noneLive (.inl enabled) handler ?_).elim
      rw [here]
      decide
  | activate =>
      exact iff_of_true
        (handlerFed_of_kept fed rfl (fun _ => id) id id)
        (inTime (fun _ => by simp))
  | create =>
      refine iff_of_true ?_ (inTime (fun _ => by simp))
      intro handler latest waiting _
      have isNew : handler = session.started :=
        (Nat.succ_injective latest).symm
      subst isNew
      simp [Session.effect] at waiting
  | check handler =>
      refine iff_of_true
        (handlerFed_of_kept fed rfl
          (fun _ => waiting_of_setHandler ?_) id id)
        (inTime (fun _ => by simp))
      cases session.enableThread <;> decide
  | markRunning handler =>
      refine iff_of_true ?_ (inTime (fun _ => by simp))
      intro _ _ _ _
      rfl
  | release handler =>
      exact iff_of_true
        (handlerFed_of_kept fed rfl
          (fun _ => waiting_of_setHandler (by decide)) id id)
        (inTime (fun _ => by simp))
  | send handler =>
      exact iff_of_true
        (handlerFed_of_kept fed rfl
          (fun _ => waiting_of_setHandler (by decide)) id id)
        (inTime (fun _ => by simp))
  | clear handler =>
      exact iff_of_true
        (handlerFed_of_kept fed rfl
          (fun _ => waiting_of_setHandler (by decide)) id id)
        (inTime (fun _ => by simp))
  | markInactive handler =>
      exact iff_of_true
        (handlerFed_of_kept fed rfl
          (fun _ => waiting_of_setHandler (by decide)) id id)
        (inTime (fun _ => by simp))
  | markStopped old =>
      have here : session.handlerPc old = .stopping := enabled
      constructor
      · intro fedAfter _ handler _ latest waiting
        have differs : handler ≠ old := by
          intro same
          subst same
          rw [here] at waiting
          exact nomatch waiting
        by_contra enableThread
        refine Bool.false_ne_true
          (fedAfter handler latest ?_ (eq_true_of_ne_false enableThread))
        exact (Session.setHandler_handlerPc_of_ne differs session .done).trans
          waiting
      · intro stopsInTime handler latest waiting enableThread
        have before : session.handlerPc handler = .waiting :=
          waiting_of_setHandler (by decide) waiting
        exact (Bool.false_ne_true
          ((stopsInTime old handler rfl latest before).symm.trans
            enableThread)).elim
  | load rcvr =>
      exact iff_of_true
        (handlerFed_of_kept fed rfl (fun _ => id) id id)
        (inTime (fun _ => by simp))
  | leave rcvr =>
      exact iff_of_true
        (handlerFed_of_kept fed rfl (fun _ => id) id id)
        (inTime (fun _ => by simp))

/--
In every state of a run the waiting handler is fed, exactly when no handler of
an earlier START clears `running` during the wait of the latest one.
-/
theorem handlerFed_iff_stopsInTime
    (actions : List (SessionAction count)) :
    EveryState Session.step HandlerFed Session.initial actions ↔
      EveryStep Session.step StopsInTime Session.initial actions := by
  refine everyState_iff_everyStep
    (fun sane taken => sane.step taken)
    (fun sane fed taken => handlerFed_step_iff sane fed taken)
    SessionSane.initial ?_ actions
  intro handler latest
  exact nomatch latest

/-- A START, a STOP and a START, with the first handler late to clear `running`. -/
def starvedRun : List (SessionAction 1) :=
  [.start, .force, .observe, .enable, .activate, .create,
    .check 0, .markRunning 0, .release 0, .send 0, .clear 0,
    .stop, .check 0, .markInactive 0, .observe,
    .start, .force, .observe, .enable, .activate, .create,
    .check 1, .markRunning 1, .release 1, .send 1, .clear 1,
    .check 1, .markRunning 1,
    .markStopped 0]

/-- The second handler waits for samples that `rtlsdr_callback` drops. -/
theorem handler_starved :
    ¬ ∀ (count : Nat) (actions : List (SessionAction count)) (session),
        run Session.step Session.initial actions = some session →
        HandlerFed session := by
  intro claimed
  have starved :
      ∃ session,
        run Session.step Session.initial starvedRun = some session ∧
          session.started = 2 ∧
          session.handlerPc 1 = .waiting ∧
          session.enableThread = true ∧
          session.running = false := by
    refine ⟨_, rfl, ?_⟩
    decide
  obtain ⟨session, reached, latest, waiting, enabled, stopped⟩ := starved
  have fed := claimed 1 starvedRun session reached 1 latest waiting enabled
  rw [stopped] at fed
  exact Bool.false_ne_true fed

end Running

end LibRtlSdr.Hpsdr
