import LibRtlSdr.HpsdrSession

namespace LibRtlSdr.Hpsdr

open PartialRun

/-!
# The first frame of a session

A START raises all flags so that an old `handler_ep6` leaves its wait.  An old
handler that is past its test of `enable_thread` sends one more frame and then
clears the flags, and the new handler has to wait for every receiver.  Without
such a handler nobody takes the flags back, and the new handler sends at once
what is in the payload.
-/

section Start

variable {count : Nat} {session next : Session count}

/-- A STOP or a START arrives. -/
def IsCommand (action : SessionAction count) : Prop :=
  action = .stop ∨ action = .start

instance (action : SessionAction count) : Decidable (IsCommand action) :=
  inferInstanceAs (Decidable (_ ∨ _))

/-- Every active receiver has stored its samples and raised its flag. -/
def AllLoaded (actions : List (SessionAction count)) : Prop :=
  ∀ rcvr, .load rcvr ∈ actions

instance (actions : List (SessionAction count)) :
    Decidable (AllLoaded actions) :=
  inferInstanceAs (Decidable (∀ _, _))

/-- Some handler has passed its test of `enable_thread` and will clear the flags. -/
def SomeInLoop (session : Session count) : Prop :=
  ∃ handler, (session.handlerPc handler).InLoop

/-- The flags raised so far are those of receivers that have loaded. -/
def FlagsLoaded
    (loads : List (SessionAction count))
    (session : Session count) : Prop :=
  ∀ rcvr : Fin count,
    session.sendFlags.testBit rcvr.val = true → .load rcvr ∈ loads

namespace HandlerPc

/-- The thread has not yet passed its first wait. -/
def Early (pc : HandlerPc) : Prop :=
  pc = .top ∨ pc = .starting ∨ pc = .waiting

instance (pc : HandlerPc) : Decidable pc.Early :=
  inferInstanceAs (Decidable (_ ∨ _))

end HandlerPc

/-- The handler that START is about to create, or has created, has not sent. -/
inductive BeforeFirst
    (handler : Nat)
    (session : Session count) : Prop where
  | notCreated
      (number : session.started = handler)
      (main :
        session.mainPc = .startWaiting ∨ session.mainPc = .enabling ∨
          session.mainPc = .activating ∨ session.mainPc = .creating)
  | notSent
      (main : session.mainPc = .idle)
      (enabled : session.enableThread = true)
      (early : (session.handlerPc handler).Early)

/--
Between the raising of the flags by START and the first frame: an old handler
still has to clear them, or they only stand for loads, or all have loaded.
-/
inductive StartPhase
    (handler : Nat)
    (loads : List (SessionAction count))
    (session : Session count) : Prop where
  | clearing
      (inLoop : SomeInLoop session)
      (main : session.mainPc = .startWaiting)
      (number : session.started = handler)
  | collecting
      (flags : FlagsLoaded loads session)
      (before : BeforeFirst handler session)
  | complete
      (loaded : AllLoaded loads)

/-- All flags raised by loads means that all receivers have loaded. -/
theorem FlagsLoaded.allLoaded
    {loads : List (SessionAction count)}
    (flags : FlagsLoaded loads session)
    (full : session.sendFlags = Session.mask count) :
    AllLoaded loads := by
  intro rcvr
  apply flags rcvr
  rw [full, Session.mask, FlagWord.testBit_wordOf]
  simp

/-- Flags that stay, or are cleared, still stand for loads. -/
theorem FlagsLoaded.kept
    {loads : List (SessionAction count)}
    (flags : FlagsLoaded loads session)
    (action : SessionAction count)
    (fewer :
      ∀ bit, next.sendFlags.testBit bit = true →
        session.sendFlags.testBit bit = true) :
    FlagsLoaded (loads ++ [action]) next := by
  intro rcvr raised
  exact List.mem_append_left [action] (flags rcvr (fewer rcvr.val raised))

/-- The flag that a load raises stands for that load. -/
theorem FlagsLoaded.load
    {loads : List (SessionAction count)}
    (flags : FlagsLoaded loads session)
    (rcvr : Fin count) :
    FlagsLoaded (loads ++ [.load rcvr])
      (session.effect (.load rcvr)) := by
  intro other raised
  simp only [Session.effect, Nat.testBit_or, Bool.or_eq_true,
    FlagWord.testBit_one_shiftLeft, decide_eq_true_eq] at raised
  rcases raised with before | now
  · exact List.mem_append_left _ (flags other before)
  · rw [Fin.ext now]
    exact List.mem_append_right loads (List.mem_singleton_self _)

/-- More steps do not undo the loads. -/
theorem AllLoaded.concat
    {loads : List (SessionAction count)}
    (loaded : AllLoaded loads)
    (action : SessionAction count) :
    AllLoaded (loads ++ [action]) :=
  fun rcvr => List.mem_append_left [action] (loaded rcvr)

/-- A handler in the loop stays there when another one moves. -/
theorem SomeInLoop.move
    {handler : Nat}
    {pc : HandlerPc}
    (inLoop : SomeInLoop session)
    (stays : (session.handlerPc handler).InLoop → pc.InLoop) :
    SomeInLoop (session.setHandler handler pc) := by
  obtain ⟨other, here⟩ := inLoop
  refine ⟨other, ?_⟩
  by_cases same : other = handler
  · subst same
    rw [Session.setHandler_handlerPc_self]
    exact stays here
  · rw [Session.setHandler_handlerPc_of_ne same]
    exact here

/-- A move of a handler keeps the first frame outstanding, unless it sends it. -/
theorem BeforeFirst.move
    {handler mover : Nat}
    {pc : HandlerPc}
    (before : BeforeFirst handler session)
    (early :
      session.enableThread = true →
        mover = handler → (session.handlerPc mover).Early → pc.Early) :
    BeforeFirst handler (session.setHandler mover pc) := by
  cases before with
  | notCreated number main =>
      exact .notCreated number main
  | notSent main enabled wasEarly =>
      refine .notSent main enabled ?_
      by_cases same : handler = mover
      · subst same
        rw [Session.setHandler_handlerPc_self]
        exact early enabled rfl wasEarly
      · rw [Session.setHandler_handlerPc_of_ne same]
        exact wasEarly

/-- The flags and `running` say nothing about the first frame. -/
theorem BeforeFirst.congr
    {handler : Nat}
    (before : BeforeFirst handler session)
    (startedEq : next.started = session.started)
    (mainEq : next.mainPc = session.mainPc)
    (enableEq : next.enableThread = session.enableThread)
    (handlerEq : next.handlerPc handler = session.handlerPc handler) :
    BeforeFirst handler next := by
  cases before with
  | notCreated number main =>
      exact .notCreated (startedEq.trans number) (by rw [mainEq]; exact main)
  | notSent main enabled early =>
      exact .notSent (mainEq.trans main) (enableEq.trans enabled)
        (by rw [handlerEq]; exact early)

/-- The main thread is not at its wait for `active_thread` while the flags stand for loads. -/
theorem BeforeFirst.mainPc_ne
    {handler : Nat}
    {pc : MainPc}
    (before : BeforeFirst handler session)
    (elsewhere : pc = .forcing ∨ pc = .stopWaiting) :
    session.mainPc ≠ pc := by
  intro here
  cases before with
  | notCreated number main =>
      rw [here] at main
      rcases elsewhere with pcEq | pcEq <;> subst pcEq <;> simp at main
  | notSent main enabled early =>
      rw [here] at main
      rcases elsewhere with pcEq | pcEq <;> subst pcEq <;> simp at main

/-- While the old handler has to clear the flags, every step keeps the phase. -/
theorem StartPhase.step_clearing
    (sane : SessionSane session)
    {handler : Nat}
    {loads : List (SessionAction count)}
    (inLoop : SomeInLoop session)
    (main : session.mainPc = .startWaiting)
    (number : session.started = handler)
    {action : SessionAction count}
    (enabled : session.Enabled action) :
    StartPhase handler (loads ++ [action]) (session.effect action) := by
  cases action with
  | stop =>
      exact nomatch main.symm.trans enabled
  | start =>
      exact nomatch main.symm.trans enabled
  | force =>
      exact nomatch main.symm.trans enabled.1
  | observe =>
      obtain ⟨other, here⟩ := inLoop
      exact (Bool.false_ne_true
        (enabled.2.symm.trans (sane.active_of_live other here.live))).elim
  | enable =>
      exact nomatch main.symm.trans enabled
  | activate =>
      exact nomatch main.symm.trans enabled
  | create =>
      exact nomatch main.symm.trans enabled
  | check mover =>
      have here : session.handlerPc mover = .top := enabled
      refine .clearing (inLoop.move ?_) main number
      rw [here]
      exact fun atTop => absurd atTop (by decide)
  | markRunning mover =>
      exact .clearing (inLoop.move (fun _ => by decide)) main number
  | release mover =>
      exact .clearing (inLoop.move (fun _ => by decide)) main number
  | send mover =>
      exact .clearing (inLoop.move (fun _ => by decide)) main number
  | clear mover =>
      refine .collecting ?_ (.notCreated number (.inl main))
      intro rcvr raised
      simp [Session.effect] at raised
  | markInactive mover =>
      have here : session.handlerPc mover = .leaving := enabled
      refine .clearing (inLoop.move ?_) main number
      rw [here]
      decide
  | markStopped mover =>
      have here : session.handlerPc mover = .stopping := enabled
      refine .clearing (inLoop.move ?_) main number
      rw [here]
      decide
  | load rcvr =>
      exact .clearing inLoop main number
  | leave rcvr =>
      exact .clearing inLoop main number

/-- While the flags stand for loads, every step but a command keeps the phase. -/
theorem StartPhase.step_collecting
    (sane : SessionSane session)
    {handler : Nat}
    {loads : List (SessionAction count)}
    (flags : FlagsLoaded loads session)
    (before : BeforeFirst handler session)
    {action : SessionAction count}
    (noCommand : ¬ IsCommand action)
    (enabled : session.Enabled action) :
    StartPhase handler (loads ++ [action]) (session.effect action) := by
  cases action with
  | stop =>
      exact (noCommand (.inl rfl)).elim
  | start =>
      exact (noCommand (.inr rfl)).elim
  | force =>
      exact (before.mainPc_ne (.inl rfl) enabled.1).elim
  | observe =>
      have notStop : session.mainPc ≠ .stopWaiting :=
        before.mainPc_ne (.inr rfl)
      refine .collecting (flags.kept .observe (fun _ => id)) ?_
      have waiting : session.mainPc = .startWaiting :=
        enabled.1.resolve_left notStop
      cases before with
      | notCreated number main =>
          refine .notCreated number ?_
          simp [Session.effect, notStop]
      | notSent main enabledNow early =>
          exact absurd (main.symm.trans waiting) (by decide)
  | enable =>
      refine .collecting (flags.kept .enable (fun _ => id)) ?_
      have here : session.mainPc = .enabling := enabled
      cases before with
      | notCreated number main =>
          exact .notCreated number (.inr (.inr (.inl rfl)))
      | notSent main enabledNow early =>
          exact absurd (main.symm.trans here) (by decide)
  | activate =>
      refine .collecting (flags.kept .activate (fun _ => id)) ?_
      have here : session.mainPc = .activating := enabled
      cases before with
      | notCreated number main =>
          exact .notCreated number (.inr (.inr (.inr rfl)))
      | notSent main enabledNow early =>
          exact absurd (main.symm.trans here) (by decide)
  | create =>
      refine .collecting (flags.kept .create (fun _ => id)) ?_
      have here : session.mainPc = .creating := enabled
      cases before with
      | notCreated number main =>
          subst number
          refine .notSent rfl (sane.enabled (.inr here)) ?_
          simp [Session.effect, HandlerPc.Early]
      | notSent main enabledNow early =>
          exact absurd (main.symm.trans here) (by decide)
  | check mover =>
      refine .collecting (flags.kept (.check mover) (fun _ => id))
        (before.move ?_)
      intro enabledNow _ _
      rw [if_pos enabledNow]
      decide
  | markRunning mover =>
      refine .collecting (flags.kept (.markRunning mover) (fun _ => id)) ?_
      have moved : BeforeFirst handler (session.setHandler mover .waiting) :=
        before.move (fun _ _ _ => by decide)
      exact moved.congr rfl rfl rfl rfl
  | release mover =>
      by_cases full : session.sendFlags = Session.mask count
      · exact .complete ((flags.allLoaded full).concat _)
      · have disabled := enabled.2.2.resolve_left full
        refine .collecting (flags.kept (.release mover) (fun _ => id))
          (before.move ?_)
        intro enabledNow
        exact (Bool.false_ne_true (disabled.symm.trans enabledNow)).elim
  | send mover =>
      refine .collecting (flags.kept (.send mover) (fun _ => id))
        (before.move ?_)
      rw [enabled.1]
      simp [HandlerPc.Early]
  | clear mover =>
      have here : session.handlerPc mover = .sent := enabled
      have moved : BeforeFirst handler (session.setHandler mover .top) :=
        before.move (fun _ _ _ => by decide)
      refine .collecting (flags.kept (.clear mover) ?_)
        (moved.congr rfl rfl rfl rfl)
      intro bit raised
      simp [Session.effect] at raised
  | markInactive mover =>
      have here : session.handlerPc mover = .leaving := enabled
      have moved : BeforeFirst handler (session.setHandler mover .stopping) := by
        refine before.move ?_
        rw [here]
        simp [HandlerPc.Early]
      exact .collecting (flags.kept (.markInactive mover) (fun _ => id))
        (moved.congr rfl rfl rfl rfl)
  | markStopped mover =>
      have here : session.handlerPc mover = .stopping := enabled
      have moved : BeforeFirst handler (session.setHandler mover .done) := by
        refine before.move ?_
        rw [here]
        simp [HandlerPc.Early]
      exact .collecting (flags.kept (.markStopped mover) (fun _ => id))
        (moved.congr rfl rfl rfl rfl)
  | load rcvr =>
      exact .collecting (flags.load rcvr) (before.congr rfl rfl rfl rfl)
  | leave rcvr =>
      exact .collecting (flags.kept (.leave rcvr) (fun _ => id))
        (before.congr rfl rfl rfl rfl)

/-- Every step but a command keeps the phase. -/
theorem StartPhase.step
    (sane : SessionSane session)
    {handler : Nat}
    {loads : List (SessionAction count)}
    (phase : StartPhase handler loads session)
    {action : SessionAction count}
    (noCommand : ¬ IsCommand action)
    (taken : session.step action = some next) :
    StartPhase handler (loads ++ [action]) next := by
  obtain ⟨enabled, rfl⟩ := Session.step_eq_some.mp taken
  cases phase with
  | clearing inLoop main number =>
      exact step_clearing sane inLoop main number enabled
  | collecting flags before =>
      exact step_collecting sane flags before noCommand enabled
  | complete loaded =>
      exact .complete (loaded.concat action)

/-- Sending the first frame takes that all receivers have loaded. -/
theorem StartPhase.allLoaded_of_send
    (sane : SessionSane session)
    {handler : Nat}
    {loads : List (SessionAction count)}
    (phase : StartPhase handler loads session)
    (taken : session.step (.send handler) = some next) :
    AllLoaded loads := by
  obtain ⟨⟨holding, _⟩, _⟩ := Session.step_eq_some.mp taken
  have live : (session.handlerPc handler).Live := by
    rw [holding]
    decide
  cases phase with
  | clearing inLoop main number =>
      exact ((sane.created live).ne number.symm).elim
  | collecting flags before =>
      cases before with
      | notCreated number main =>
          exact ((sane.created live).ne number.symm).elim
      | notSent main enabled early =>
          rw [holding] at early
          exact absurd early (by decide)
  | complete loaded =>
      exact loaded

/-- A phase lasts through every run without a command. -/
theorem StartPhase.run
    {handler : Nat}
    {loads : List (SessionAction count)}
    (sane : SessionSane session)
    (phase : StartPhase handler loads session)
    {actions : List (SessionAction count)}
    (noCommand : ∀ action ∈ actions, ¬ IsCommand action)
    (reached : PartialRun.run Session.step session actions = some next) :
    SessionSane next ∧ StartPhase handler (loads ++ actions) next := by
  have both :
      (∀ action ∈ actions, ¬ IsCommand action) →
        SessionSane next ∧ StartPhase handler (loads ++ actions) next := by
    refine invariant_history
      (fun history state =>
        (∀ action ∈ history, ¬ IsCommand action) →
          SessionSane state ∧ StartPhase handler (loads ++ history) state)
      ?_ ?_ reached
    · intro _
      rw [List.append_nil]
      exact ⟨sane, phase⟩
    · intro history state action after before taken quiet
      obtain ⟨saneBefore, phaseBefore⟩ :=
        before (fun earlier member =>
          quiet earlier (List.mem_append_left _ member))
      have notCommand : ¬ IsCommand action :=
        quiet action (by simp)
      rw [← List.append_assoc]
      exact ⟨saneBefore.step taken,
        phaseBefore.step saneBefore notCommand taken⟩
  exact both noCommand

/-- No load, no command, and no frame of the handler that START creates. -/
def Quiet
    (handler : Nat)
    (action : SessionAction count) : Prop :=
  (∀ rcvr, action ≠ .load rcvr) ∧ ¬ IsCommand action ∧
    action ≠ .send handler

/-- The handlers before START have gone; only their own steps led there. -/
structure OldGone
    (session final : Session count) : Prop where
  sane : SessionSane final
  main : final.mainPc = .startWaiting
  number : final.started = session.started
  noneLive : ∀ handler, ¬ (final.handlerPc handler).Live
  flags : ¬ SomeInLoop session → final.sendFlags = session.sendFlags

/-- The old handlers can leave without any receiver loading. -/
def CanLeave (session : Session count) : Prop :=
  ∃ actions final,
    (∀ action ∈ actions, Quiet session.started action) ∧
      run Session.step session actions = some final ∧
      OldGone session final

/-- One step of an old handler, and then the rest of its way out. -/
theorem CanLeave.prepend
    {action : SessionAction count}
    (taken : session.step action = some next)
    (quiet : Quiet session.started action)
    (number : next.started = session.started)
    (keeps :
      ¬ SomeInLoop session →
        ¬ SomeInLoop next ∧ next.sendFlags = session.sendFlags)
    (rest : CanLeave next) :
    CanLeave session := by
  obtain ⟨actions, final, quietRest, reached, gone⟩ := rest
  refine ⟨action :: actions, final, ?_, ?_, ?_⟩
  · intro member isMember
    rcases List.mem_cons.mp isMember with same | later
    · rw [same]
      exact quiet
    · rw [← number]
      exact quietRest member later
  · exact run_cons_of_step taken reached
  · exact
      { sane := gone.sane
        main := gone.main
        number := gone.number.trans number
        noneLive := gone.noneLive
        flags := fun outside =>
          (gone.flags (keeps outside).1).trans (keeps outside).2 }

/-- A handler that moves to a place outside the loop brings nobody into it. -/
theorem not_someInLoop_setHandler
    {handler : Nat}
    {pc : HandlerPc}
    (outside : ¬ SomeInLoop session)
    (pcOutside : ¬ pc.InLoop) :
    ¬ SomeInLoop (session.setHandler handler pc) := by
  rintro ⟨other, here⟩
  by_cases same : other = handler
  · subst same
    rw [Session.setHandler_handlerPc_self] at here
    exact pcOutside here
  · rw [Session.setHandler_handlerPc_of_ne same] at here
    exact outside ⟨other, here⟩

section Leaving

variable {handler : Nat}

theorem canLeave_of_leaving
    (sane : SessionSane session)
    (main : session.mainPc = .startWaiting)
    (here : session.handlerPc handler = .leaving) :
    CanLeave session := by
  have enabled : session.Enabled (.markInactive handler) := here
  refine ⟨[.markInactive handler], _, ?_,
    run_cons_of_step (Session.step_eq_some.mpr ⟨enabled, rfl⟩) rfl, ?_⟩
  · simp [Quiet, IsCommand]
  have live : (session.handlerPc handler).Live := by
    rw [here]
    decide
  exact
    { sane := sane.markInactive here
      main := main
      number := rfl
      noneLive := by
        intro other otherLive
        exact Bool.false_ne_true
          ((sane.markInactive here).active_of_live other otherLive)
      flags := fun _ => rfl }

theorem canLeave_of_top
    (sane : SessionSane session)
    (main : session.mainPc = .startWaiting)
    (here : session.handlerPc handler = .top) :
    CanLeave session := by
  have disabled : session.enableThread = false :=
    sane.disabled (.inr (.inr (.inl main)))
  have taken :
      session.step (.check handler) =
        some (session.setHandler handler .leaving) := by
    refine Session.step_eq_some.mpr ⟨here, ?_⟩
    simp [Session.effect, disabled]
  refine CanLeave.prepend taken (by simp [Quiet, IsCommand]) rfl ?_ ?_
  · intro outside
    exact ⟨not_someInLoop_setHandler outside (by decide), rfl⟩
  · exact canLeave_of_leaving (sane.step taken) main
      (Session.setHandler_handlerPc_self session handler .leaving)

theorem canLeave_of_sent
    (sane : SessionSane session)
    (main : session.mainPc = .startWaiting)
    (here : session.handlerPc handler = .sent) :
    CanLeave session := by
  have taken := Session.step_eq_some.mpr
    ⟨(show session.Enabled (.clear handler) from here), rfl⟩
  refine CanLeave.prepend taken (by simp [Quiet, IsCommand]) rfl ?_ ?_
  · intro outside
    exact (outside ⟨handler, by rw [here]; decide⟩).elim
  · exact canLeave_of_top (sane.step taken) main
      (Session.setHandler_handlerPc_self session handler .top)

theorem canLeave_of_holding
    (sane : SessionSane session)
    (main : session.mainPc = .startWaiting)
    (here : session.handlerPc handler = .holding) :
    CanLeave session := by
  have live : (session.handlerPc handler).Live := by
    rw [here]
    decide
  have free : session.DoneSendLockFree :=
    sane.doneSendLockFree live (by rw [here]; decide)
  have taken := Session.step_eq_some.mpr
    ⟨(show session.Enabled (.send handler) from ⟨here, free⟩), rfl⟩
  refine CanLeave.prepend taken ?_ rfl ?_ ?_
  · refine ⟨by simp, by simp [IsCommand], ?_⟩
    intro same
    injection same with number
    exact (sane.created live).ne number
  · intro outside
    exact (outside ⟨handler, by rw [here]; decide⟩).elim
  · exact canLeave_of_sent (sane.step taken) main
      (Session.setHandler_handlerPc_self session handler .sent)

theorem canLeave_of_waiting
    (sane : SessionSane session)
    (main : session.mainPc = .startWaiting)
    (here : session.handlerPc handler = .waiting) :
    CanLeave session := by
  have live : (session.handlerPc handler).Live := by
    rw [here]
    decide
  have free : session.SendLockFree :=
    sane.sendLockFree live (by rw [here]; decide)
  have disabled : session.enableThread = false :=
    sane.disabled (.inr (.inr (.inl main)))
  have taken := Session.step_eq_some.mpr
    ⟨(show session.Enabled (.release handler) from
      ⟨here, free, .inr disabled⟩), rfl⟩
  refine CanLeave.prepend taken (by simp [Quiet, IsCommand]) rfl ?_ ?_
  · intro outside
    exact (outside ⟨handler, by rw [here]; decide⟩).elim
  · exact canLeave_of_holding (sane.step taken) main
      (Session.setHandler_handlerPc_self session handler .holding)

theorem canLeave_of_starting
    (sane : SessionSane session)
    (main : session.mainPc = .startWaiting)
    (here : session.handlerPc handler = .starting) :
    CanLeave session := by
  have taken := Session.step_eq_some.mpr
    ⟨(show session.Enabled (.markRunning handler) from here), rfl⟩
  refine CanLeave.prepend taken (by simp [Quiet, IsCommand]) rfl ?_ ?_
  · intro outside
    exact (outside ⟨handler, by rw [here]; decide⟩).elim
  · exact canLeave_of_waiting (sane.step taken) main
      (Session.setHandler_handlerPc_self session handler .waiting)

end Leaving

/-- START can always wait out the old handlers without any receiver loading. -/
theorem canLeave
    (sane : SessionSane session)
    (main : session.mainPc = .startWaiting) :
    CanLeave session := by
  by_cases someLive : ∃ handler, (session.handlerPc handler).Live
  · obtain ⟨handler, live⟩ := someLive
    cases here : session.handlerPc handler with
    | absent =>
        exact (live.1 here).elim
    | top =>
        exact canLeave_of_top sane main here
    | starting =>
        exact canLeave_of_starting sane main here
    | waiting =>
        exact canLeave_of_waiting sane main here
    | holding =>
        exact canLeave_of_holding sane main here
    | sent =>
        exact canLeave_of_sent sane main here
    | leaving =>
        exact canLeave_of_leaving sane main here
    | stopping =>
        exact (live.2.1 here).elim
    | done =>
        exact (live.2.2 here).elim
  · refine ⟨[], session, by simp, rfl, ?_⟩
    exact
      { sane := sane
        main := main
        number := rfl
        noneLive := fun handler live => someLive ⟨handler, live⟩
        flags := fun _ => rfl }

/-- The main thread sets both variables and creates the handler. -/
def begun (session : Session count) : Session count :=
  { session.setHandler session.started .top with
    enableThread := true
    activeThread := true
    started := session.started + 1
    mainPc := .idle }

/-- The new handler has passed its first test and set `running`. -/
def firstWait (session : Session count) : Session count :=
  { session.setHandler session.started .waiting with
    enableThread := true
    activeThread := true
    running := true
    started := session.started + 1
    mainPc := .idle }

/-- With no live handler the main thread goes on to create the new one. -/
theorem run_begun
    (main : session.mainPc = .startWaiting)
    (inactive : session.activeThread = false)
    {rest : List (SessionAction count)}
    (reached : run Session.step (begun session) rest = some next) :
    run Session.step session
      (.observe :: .enable :: .activate :: .create :: rest) = some next := by
  have notStop : session.mainPc ≠ .stopWaiting := by
    rw [main]
    decide
  have observed :
      session.step .observe = some { session with mainPc := .enabling } := by
    refine Session.step_eq_some.mpr ⟨⟨.inr main, inactive⟩, ?_⟩
    simp [Session.effect, notStop]
  refine run_cons_of_step observed ?_
  refine run_cons_of_step (Session.step_eq_some.mpr ⟨rfl, rfl⟩) ?_
  refine run_cons_of_step (Session.step_eq_some.mpr ⟨rfl, rfl⟩) ?_
  refine run_cons_of_step (Session.step_eq_some.mpr ⟨rfl, rfl⟩) ?_
  exact reached

/-- The new handler goes on to its first wait. -/
theorem run_firstWait
    {rest : List (SessionAction count)}
    (reached : run Session.step (firstWait session) rest = some next) :
    run Session.step (begun session)
      (.check session.started :: .markRunning session.started :: rest) =
        some next := by
  have atTop : (begun session).handlerPc session.started = .top :=
    Session.setHandler_handlerPc_self session session.started .top
  refine run_cons_of_step (Session.step_eq_some.mpr ⟨atTop, rfl⟩) ?_
  refine run_cons_of_step
    (Session.step_eq_some.mpr
      ⟨Session.setHandler_handlerPc_self _ session.started .starting, rfl⟩) ?_
  have sameState :
      ((begun session).effect (.check session.started)).effect
          (.markRunning session.started) =
        firstWait session := by
    simp [Session.effect, Session.setHandler, begun, firstWait]
  rw [sameState]
  exact reached

/-- A handler whose wait is over sends its frame. -/
theorem run_send
    (sane : SessionSane session)
    {handler : Nat}
    (here : session.handlerPc handler = .waiting)
    (ended :
      session.sendFlags = Session.mask count ∨
        session.enableThread = false) :
    ∃ final,
      run Session.step session [.release handler, .send handler] =
        some final := by
  have live : (session.handlerPc handler).Live := by
    rw [here]
    decide
  have sendFree : session.SendLockFree :=
    sane.sendLockFree live (by rw [here]; decide)
  have released := Session.step_eq_some.mpr
    ⟨(show session.Enabled (.release handler) from
      ⟨here, sendFree, ended⟩), rfl⟩
  have holding :
      (session.effect (.release handler)).handlerPc handler = .holding :=
    Session.setHandler_handlerPc_self session handler .holding
  have doneFree : (session.effect (.release handler)).DoneSendLockFree :=
    (sane.step released).doneSendLockFree
      (by rw [holding]; decide) (by rw [holding]; decide)
  exact ⟨_, run_cons_of_step released
    (run_cons_of_step
      (Session.step_eq_some.mpr ⟨⟨holding, doneFree⟩, rfl⟩) rfl)⟩

/-- With no live handler the new one can come to its first wait by itself. -/
theorem run_toFirstWait
    (sane : SessionSane session)
    (main : session.mainPc = .startWaiting)
    (noneLive : ∀ handler, ¬ (session.handlerPc handler).Live) :
    run Session.step session
      [.observe, .enable, .activate, .create, .check session.started,
        .markRunning session.started] = some (firstWait session) := by
  have inactive : session.activeThread = false := by
    by_contra active
    rcases sane.live_of_active (eq_true_of_ne_false active) with
      creating | ⟨handler, live⟩
    · exact nomatch main.symm.trans creating
    · exact noneLive handler live
  exact run_begun main inactive (run_firstWait rfl)

/-- `between` leads from START's raising of the flags up to the first frame. -/
def FirstFrame
    (session : Session count)
    (between : List (SessionAction count)) : Prop :=
  .send session.started ∉ between ∧
    ∃ final,
      run Session.step session
        (.force :: (between ++ [.send session.started])) = some final

/-- Steps without a load add no receiver to those that have loaded. -/
theorem AllLoaded.of_append
    {early between : List (SessionAction count)}
    (loaded : AllLoaded (early ++ between))
    (noLoad : ∀ rcvr, .load rcvr ∉ between) :
    AllLoaded early := by
  intro rcvr
  rcases List.mem_append.mp (loaded rcvr) with inEarly | inBetween
  · exact inEarly
  · exact (noLoad rcvr inBetween).elim

/--
After the old handlers have left, the new one can go to its first frame without
a load: at once while all flags are up, and otherwise when a STOP arrives.
-/
theorem exists_firstFrame
    (sane : SessionSane session)
    (forcing : session.Enabled .force)
    {commands : List (SessionAction count)}
    (commandsEq :
      commands = [] ∧ ¬ SomeInLoop session ∨ commands = [.stop]) :
    ∃ between,
      FirstFrame session between ∧
        (∀ rcvr, .load rcvr ∉ between) ∧
        (∀ action ∈ between, IsCommand action → action ∈ commands) := by
  have taken := Session.step_eq_some.mpr
    ⟨forcing, (rfl : session.effect .force = _)⟩
  obtain ⟨leaving, gone, quiet, reachedGone, isGone⟩ :=
    canLeave (sane.step taken) rfl
  have number : gone.started = session.started := isGone.number
  have reachedWait :=
    run_toFirstWait isGone.sane isGone.main isGone.noneLive
  have saneWait : SessionSane (firstWait gone) :=
    PartialRun.invariant SessionSane (fun sane taken => sane.step taken)
      isGone.sane reachedWait
  have atWait : (firstWait gone).handlerPc gone.started = .waiting :=
    Session.setHandler_handlerPc_self gone gone.started .waiting
  have sends :
      ∃ final,
        run Session.step (firstWait gone)
          (commands ++ [.release gone.started, .send gone.started]) =
            some final := by
    rcases commandsEq with ⟨isEmpty, outside⟩ | isStop
    · subst isEmpty
      have full : (firstWait gone).sendFlags = Session.mask count :=
        isGone.flags outside
      exact run_send saneWait atWait (.inl full)
    · subst isStop
      have stopped := Session.step_eq_some.mpr
        ⟨(show (firstWait gone).Enabled .stop from rfl), rfl⟩
      obtain ⟨final, reached⟩ :=
        run_send (saneWait.step stopped) atWait (.inr rfl)
      exact ⟨final, run_cons_of_step stopped reached⟩
  obtain ⟨final, reachedFinal⟩ := sends
  rw [number] at reachedWait reachedFinal
  refine ⟨leaving ++
    [.observe, .enable, .activate, .create, .check session.started,
      .markRunning session.started] ++
    commands ++ [.release session.started], ?_, ?_, ?_⟩
  · refine ⟨?_, final, run_cons_of_step taken ?_⟩
    · have notInLeaving : .send session.started ∉ leaving :=
        fun member => (quiet _ member).2.2 rfl
      rcases commandsEq with ⟨isEmpty, _⟩ | isStop
      · simp [isEmpty, notInLeaving]
      · simp [isStop, notInLeaving]
    · simp only [List.append_assoc]
      refine run_append_eq_some.mpr ⟨gone, reachedGone, ?_⟩
      refine run_append_eq_some.mpr ⟨firstWait gone, reachedWait, ?_⟩
      simpa using reachedFinal
  · intro rcvr
    have notInLeaving : .load rcvr ∉ leaving :=
      fun member => (quiet _ member).1 rcvr rfl
    rcases commandsEq with ⟨isEmpty, _⟩ | isStop
    · simp [isEmpty, notInLeaving]
    · simp [isStop, notInLeaving]
  · intro action member isCommand
    simp only [List.mem_append] at member
    rcases member with ((inLeaving | inWait) | inCommands) | isRelease
    · exact ((quiet action inLeaving).2.1 isCommand).elim
    · rcases isCommand with isStop | isStart
      · simp [isStop] at inWait
      · simp [isStart] at inWait
    · exact inCommands
    · rcases isCommand with isStop | isStart
      · simp [isStop] at isRelease
      · simp [isStart] at isRelease

/-- With an old handler in the loop, the first frame waits for every load. -/
theorem allLoaded_of_someInLoop
    (sane : SessionSane session)
    (inLoop : SomeInLoop session)
    (early : List (SessionAction count))
    {between : List (SessionAction count)}
    (noCommand : ∀ action ∈ between, ¬ IsCommand action)
    (firstFrame : FirstFrame session between) :
    AllLoaded (early ++ between) := by
  obtain ⟨_, final, reached⟩ := firstFrame
  rw [← List.cons_append] at reached
  obtain ⟨before, reachedBefore, sent⟩ := run_concat_eq_some.mp reached
  rw [run_cons, Option.bind_eq_some_iff] at reachedBefore
  obtain ⟨forced, taken, reachedBefore⟩ := reachedBefore
  obtain ⟨enabled, isForced⟩ := Session.step_eq_some.mp taken
  have phase : StartPhase session.started early forced := by
    subst isForced
    exact .clearing inLoop rfl rfl
  obtain ⟨saneBefore, phaseBefore⟩ :=
    phase.run (sane.step taken) noCommand reachedBefore
  exact phaseBefore.allLoaded_of_send saneBefore sent

/--
When a START raises the flags, the new handler's first frame waits for a load
of every receiver exactly when an old handler is between its test of
`enable_thread` and its clearing of the flags, or all have loaded since the
START arrived.  If a further command may arrive, only the second will do.
-/
theorem firstFrame_allLoaded_iff
    {before early : List (SessionAction count)}
    (arrived :
      run Session.step Session.initial (before ++ .start :: early) =
        some session)
    (forcing : session.Enabled .force) :
    ((∀ between,
        (∀ action ∈ between, ¬ IsCommand action) →
        FirstFrame session between →
        AllLoaded (early ++ between)) ↔
      SomeInLoop session ∨ AllLoaded early) ∧
    ((∀ between,
        FirstFrame session between →
        AllLoaded (early ++ between)) ↔
      AllLoaded early) := by
  have sane : SessionSane session := SessionSane.run arrived
  refine ⟨⟨?_, ?_⟩, ?_, ?_⟩
  · intro waits
    by_cases inLoop : SomeInLoop session
    · exact .inl inLoop
    · obtain ⟨between, firstFrame, noLoad, commands⟩ :=
        exists_firstFrame sane forcing (.inl ⟨rfl, inLoop⟩)
      have noCommand : ∀ action ∈ between, ¬ IsCommand action := by
        intro action member isCommand
        exact nomatch commands action member isCommand
      exact .inr ((waits between noCommand firstFrame).of_append noLoad)
  · intro condition between noCommand firstFrame
    rcases condition with inLoop | loaded
    · exact allLoaded_of_someInLoop sane inLoop early noCommand firstFrame
    · exact fun rcvr => List.mem_append_left between (loaded rcvr)
  · intro waits
    obtain ⟨between, firstFrame, noLoad, _⟩ :=
      exists_firstFrame sane forcing (.inr rfl)
    exact (waits between firstFrame).of_append noLoad
  · intro loaded between _ rcvr
    exact List.mem_append_left between (loaded rcvr)

/-- At the very first START nobody is there to take the flags back. -/
theorem firstFrame_allLoaded_iff_first :
    ∃ session : Session 1,
      run Session.step Session.initial ([] ++ .start :: []) = some session ∧
        ¬ (∀ between,
            (∀ action ∈ between, ¬ IsCommand action) →
            FirstFrame session between →
            AllLoaded ([] ++ between)) := by
  refine ⟨_, rfl, ?_⟩
  intro waits
  have condition :=
    (@firstFrame_allLoaded_iff 1 _ [] [] rfl ⟨rfl, by decide⟩).1.mp waits
  rcases condition with ⟨handler, inLoop⟩ | loaded
  · exact inLoop.live.1 rfl
  · exact nomatch loaded 0

/-- The first frame after the first START, without any load. -/
def unloadedRun : List (SessionAction 1) :=
  [.observe, .enable, .activate, .create, .check 0, .markRunning 0,
    .release 0]

/-- The first session begins with a frame that no receiver has loaded. -/
theorem first_frame_not_loaded :
    ¬ ∀ (count : Nat)
        (before early between : List (SessionAction count))
        (session : Session count),
        run Session.step Session.initial (before ++ .start :: early) =
          some session →
        session.Enabled .force →
        FirstFrame session between →
        AllLoaded (early ++ between) := by
  intro claimed
  have firstFrame :
      ∃ session : Session 1,
        run Session.step Session.initial ([] ++ .start :: []) =
            some session ∧
          session.Enabled .force ∧
          FirstFrame session unloadedRun := by
    refine ⟨_, rfl, ⟨rfl, by decide⟩, by decide, _, rfl⟩
  obtain ⟨session, arrived, forcing, firstFrame⟩ := firstFrame
  exact absurd
    (claimed 1 [] [] unloadedRun session arrived forcing firstFrame)
    (by decide)

end Start

end LibRtlSdr.Hpsdr
