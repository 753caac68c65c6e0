import LibRtlSdr.HpsdrFrameHandshake
import LibRtlSdr.HpsdrFrameLayout

namespace LibRtlSdr.Hpsdr

/-!
# Receivers, sender and packet handler together

The receiver threads and the sender share the payload and the flag word; the
packet handler changes the masks and the layout they work with, at any moment.
A step of the system is a step of the frame link under the configuration in
force, or one call of `process_ep2`.  All dongles have a thread, whether their
receiver is active or not.
-/

/-- What `format_payload` leaves in the payload: both headers, and zeros. -/
def formatPayload : Payload :=
  fun position =>
    if position < 8 then
      [0xEF, 0xFE, 1, 6, 0, 0, 0, 0].getD position 0
    else if position < 16 then
      [0x7f, 0x7f, 0x7f, 0, 0x1e, 0, 0, 32].getD (position - 8) 0
    else if 520 ≤ position ∧ position < 528 then
      [0x7f, 0x7f, 0x7f, 0, 0x1e, 0, 0, 32].getD (position - 520) 0
    else
      0

/-- Plug in the sequence number, highest byte first. -/
def plugSequence (counter : UInt32) (payload : Payload) : Payload :=
  fun position =>
    if position = 4 then
      (counter >>> 24).toUInt8
    else if position = 5 then
      (counter >>> 16).toUInt8
    else if position = 6 then
      (counter >>> 8).toUInt8
    else if position = 7 then
      counter.toUInt8
    else
      payload position

/-- The sequence number lies in the first eight bytes. -/
theorem plugSequence_of_le
    {position : Nat}
    (behind : 8 ≤ position)
    (counter : UInt32)
    (payload : Payload) :
    plugSequence counter payload position = payload position := by
  unfold plugSequence
  rw [if_neg (by omega), if_neg (by omega), if_neg (by omega),
    if_neg (by omega)]

section System

variable
  {Sample : Type}
  (cast : SampleCast Sample)
  (usingIQfiles : Bool)
  (total : RcvrTotal)

/-- The masks and the packing that the threads find in the globals. -/
def liveChannel
    (state : Ep2State) :
    FrameChannel (Fin total.count) (IqBuffer Sample) Payload where
  rcvrMask := fun rcvr => state.rcvrMask rcvr
  rcvrsMask := state.rcvrsMask
  loadPayload := fun rcvr buffer payload =>
    (loadPacket cast usingIQfiles state rcvr buffer payload).payload
  plugSequence := plugSequence

/-- The globals of the packet handler and those of the frame link. -/
structure FrameSystem where
  ep2 : Ep2State
  link : FrameLink (Fin total.count) Payload

/-- The steps of the system. -/
inductive SystemAction (Sample : Type) where
  /-- `process_ep2` handles a datagram. -/
  | ep2 (buffer : Ep2Buffer)
  /-- A receiver thread or the sender takes a step. -/
  | link (action : FrameAction (Fin total.count) (IqBuffer Sample))

/-- After the set-up in `main` and `format_payload`. -/
def FrameSystem.initial : FrameSystem total where
  ep2 := .initial
  link := .initial formatPayload

/-- One step of the system. -/
def systemStep
    (system : FrameSystem total) :
    SystemAction total Sample → Option (FrameSystem total)
  | .ep2 buffer =>
      (processEp2 total system.ep2 buffer).map
        (fun ep2 => { system with ep2 := ep2 })
  | .link action =>
      (FrameLink.step (liveChannel cast usingIQfiles total system.ep2)
        system.link action).map
        (fun link => { system with link := link })

variable
  {cast usingIQfiles total}
  {system next : FrameSystem total}

theorem systemStep_ep2_iff {buffer : Ep2Buffer} :
    systemStep cast usingIQfiles total system (.ep2 buffer) = some next ↔
      processEp2 total system.ep2 buffer = some next.ep2 ∧
        next.link = system.link := by
  obtain ⟨nextEp2, nextLink⟩ := next
  simp only [systemStep, Option.map_eq_some_iff, FrameSystem.mk.injEq]
  constructor
  · rintro ⟨ep2, taken, rfl, rfl⟩
    exact ⟨taken, rfl⟩
  · rintro ⟨taken, rfl⟩
    exact ⟨nextEp2, taken, rfl, rfl⟩

theorem systemStep_link_iff
    {action : FrameAction (Fin total.count) (IqBuffer Sample)} :
    systemStep cast usingIQfiles total system (.link action) = some next ↔
      FrameLink.step (liveChannel cast usingIQfiles total system.ep2)
          system.link action = some next.link ∧
        next.ep2 = system.ep2 := by
  obtain ⟨nextEp2, nextLink⟩ := next
  simp only [systemStep, Option.map_eq_some_iff, FrameSystem.mk.injEq]
  constructor
  · rintro ⟨link, taken, rfl, rfl⟩
    exact ⟨taken, rfl⟩
  · rintro ⟨taken, rfl⟩
    exact ⟨nextLink, taken, rfl, rfl⟩

/-- The globals of the packet handler stay coherent with the held request. -/
def Configured (system : FrameSystem total) : Prop :=
  ∃ held, Coherent total held system.ep2

theorem Configured.initial :
    Configured (FrameSystem.initial total) :=
  ⟨.initial, Coherent.initial total⟩

theorem Configured.step
    {action : SystemAction total Sample}
    (configured : Configured system)
    (taken : systemStep cast usingIQfiles total system action = some next) :
    Configured next := by
  obtain ⟨held, coherent⟩ := configured
  cases action with
  | ep2 buffer =>
      exact ⟨_, coherent.of_processEp2 (systemStep_ep2_iff.mp taken).1⟩
  | link action =>
      refine ⟨held, ?_⟩
      rw [(systemStep_link_iff.mp taken).2]
      exact coherent

/-- Every run keeps the globals coherent. -/
theorem Configured.run
    (configured : Configured system)
    {actions : List (SystemAction total Sample)}
    (reached :
      PartialRun.run (systemStep cast usingIQfiles total) system actions =
        some next) :
    Configured next :=
  PartialRun.invariant Configured Configured.step configured reached

/-- The receiver count that an action asks for, if it is a packet that does. -/
def SystemAction.requestedCount?
    {Sample : Type} :
    SystemAction total Sample → Option Nat
  | .ep2 buffer =>
      (selectedRequest buffer).map ConfigRequest.numRcvrs
  | .link _ =>
      none

/-- The layout in force is the one asked for last. -/
theorem Configured.frameRcvrs_step
    {action : SystemAction total Sample}
    (configured : Configured system)
    (taken : systemStep cast usingIQfiles total system action = some next) :
    frameRcvrs next.ep2 =
      action.requestedCount?.getD (frameRcvrs system.ep2) := by
  obtain ⟨held, coherent⟩ := configured
  cases action with
  | ep2 buffer =>
      have after :=
        coherent.of_processEp2 (systemStep_ep2_iff.mp taken).1
      rw [after.installed.frameRcvrs_eq, coherent.installed.frameRcvrs_eq,
        SystemAction.requestedCount?]
      cases selectedRequest buffer <;> rfl
  | link action =>
      rw [(systemStep_link_iff.mp taken).2]
      rfl

/-! ## The flag word and the mask -/

/--
The flag word has no bit outside the mask, so that it equals the mask as soon
as all active receivers have raised their bits.
-/
structure FlagsInMask (system : FrameSystem total) : Prop where
  within :
    FlagWord.Within system.link.sendFlags system.ep2.rcvrsMask
  released :
    (∀ rcvr < system.ep2.activeNumRcvrs,
        system.link.sendFlags.testBit rcvr = true) →
      system.link.sendFlags = system.ep2.rcvrsMask

/-- The mask of a configuration has the bits of its active receivers. -/
theorem Installed.testBit_rcvrsMask
    {request : ConfigRequest}
    {state : Ep2State}
    (installed : Installed total request state)
    (bit : Nat) :
    state.rcvrsMask.testBit bit = decide (bit < state.activeNumRcvrs) := by
  rw [installed.mask, Nat.testBit_two_pow_sub_one]

/-- The first half of the property gives the second. -/
theorem Configured.flagsInMask_iff
    (configured : Configured system) :
    FlagsInMask system ↔
      ∀ bit, system.link.sendFlags.testBit bit = true →
        bit < system.ep2.activeNumRcvrs := by
  obtain ⟨held, coherent⟩ := configured
  have maskBit := coherent.installed.testBit_rcvrsMask
  constructor
  · intro flags bit set
    simpa [maskBit] using flags.within bit set
  · intro active
    have within :
        FlagWord.Within system.link.sendFlags system.ep2.rcvrsMask := by
      intro bit set
      simpa [maskBit] using active bit set
    refine ⟨within, ?_⟩
    intro everyBit
    apply within.antisymm
    intro bit set
    rw [maskBit, decide_eq_true_eq] at set
    exact everyBit bit set

/-- A receiver raises its own bit if it is active, and none otherwise. -/
theorem Coherent.testBit_rcvrMask
    {held : ConfigRequest}
    {state : Ep2State}
    (coherent : Coherent total held state)
    {rcvr : Nat}
    (real : rcvr < total.count)
    (bit : Nat) :
    (state.rcvrMask rcvr).testBit bit =
      decide (bit = rcvr ∧ rcvr < state.activeNumRcvrs) := by
  by_cases active : rcvr < state.activeNumRcvrs
  · rw [coherent.installed.enabled rcvr active,
      FlagWord.testBit_one_shiftLeft]
    simp [active]
  · rw [coherent.installed.disabled rcvr (Nat.le_of_not_lt active) real]
    simp [active]

/-- Steps of the threads raise only bits of active receivers. -/
theorem Configured.flag_active_of_link
    (configured : Configured system)
    {action : FrameAction (Fin total.count) (IqBuffer Sample)}
    (taken :
      systemStep cast usingIQfiles total system (.link action) = some next)
    {bit : Nat}
    (set : next.link.sendFlags.testBit bit = true) :
    system.link.sendFlags.testBit bit = true ∨
      bit < system.ep2.activeNumRcvrs := by
  obtain ⟨held, coherent⟩ := configured
  have linkStep := (systemStep_link_iff.mp taken).1
  cases action with
  | load rcvr buffer =>
      obtain ⟨_, _, isNext⟩ := FrameLink.step_load_iff.mp linkStep
      rw [← isNext, Nat.testBit_or, Bool.or_eq_true] at set
      rcases set with old | raised
      · exact .inl old
      · have ownBit :=
          (coherent.testBit_rcvrMask rcvr.isLt bit).symm.trans raised
        rw [decide_eq_true_eq] at ownBit
        exact .inr (ownBit.1 ▸ ownBit.2)
  | leave rcvr =>
      obtain ⟨_, _, _, isNext⟩ := FrameLink.step_leave_iff.mp linkStep
      rw [← isNext] at set
      exact .inl set
  | test =>
      obtain ⟨_, _, isNext⟩ := FrameLink.step_test_iff.mp linkStep
      rw [← isNext] at set
      exact .inl set
  | send =>
      obtain ⟨_, isNext⟩ := FrameLink.step_send_iff.mp linkStep
      rw [← isNext] at set
      exact .inl set
  | clear =>
      obtain ⟨_, isNext⟩ := FrameLink.step_clear_iff.mp linkStep
      rw [← isNext] at set
      simp at set

/--
The side condition of a step: a packet that asks for a receiver count finds no
flag up of a receiver that is not active under that count.
-/
def FlagsSurvive
    (system : FrameSystem total)
    (action : SystemAction total Sample) : Prop :=
  ∀ count ∈ action.requestedCount?, ∀ bit,
    system.link.sendFlags.testBit bit = true →
    bit < min count total.count

/-- A step keeps the flags within the mask exactly under the side condition. -/
theorem Configured.flagsInMask_step_iff
    {action : SystemAction total Sample}
    (configured : Configured system)
    (flags : FlagsInMask system)
    (taken : systemStep cast usingIQfiles total system action = some next) :
    FlagsInMask next ↔ FlagsSurvive system action := by
  have before := configured.flagsInMask_iff.mp flags
  rw [(configured.step taken).flagsInMask_iff]
  cases action with
  | ep2 buffer =>
      obtain ⟨ep2Step, sameLink⟩ := systemStep_ep2_iff.mp taken
      obtain ⟨held, coherent⟩ := configured
      have after := (coherent.of_processEp2 ep2Step).installed.active
      rw [sameLink]
      cases selected : selectedRequest buffer with
      | none =>
          rw [selected, Option.getD_none,
            ← coherent.installed.active] at after
          rw [after]
          refine iff_of_true before ?_
          intro count asked
          simp [SystemAction.requestedCount?, selected] at asked
      | some request =>
          rw [selected, Option.getD_some] at after
          rw [after]
          simp [FlagsSurvive, SystemAction.requestedCount?, selected]
  | link action =>
      rw [(systemStep_link_iff.mp taken).2]
      refine iff_of_true ?_ ?_
      · intro bit set
        exact (configured.flag_active_of_link taken set).elim
          (before bit) id
      · intro count asked
        cases asked

/--
In every run of receivers, sender and packet handler: the flag word stays within
the mask, and equals it once all active receivers have raised their bits,
exactly when each packet that asks for a receiver count finds no flag up of a
receiver that is not active under that count.
-/
theorem sendFlags_in_mask_iff
    (cast : SampleCast Sample)
    (usingIQfiles : Bool)
    (total : RcvrTotal)
    (actions : List (SystemAction total Sample)) :
    PartialRun.EveryState (systemStep cast usingIQfiles total)
        FlagsInMask (FrameSystem.initial total) actions ↔
      PartialRun.EveryStep (systemStep cast usingIQfiles total)
        FlagsSurvive (FrameSystem.initial total) actions := by
  refine PartialRun.everyState_iff_everyStep Configured.step
    Configured.flagsInMask_step_iff Configured.initial ?_ actions
  rw [Configured.initial.flagsInMask_iff]
  intro bit set
  simp [FrameSystem.initial, FrameLink.initial] at set

/-- The flag of a receiver that is switched off is up, and the sender waits. -/
structure StaleFlag
    (bit : Nat)
    (frames : List Payload)
    (system : FrameSystem total) : Prop where
  configured : Configured system
  stale : system.link.sendFlags.testBit bit = true
  inactive : system.ep2.activeNumRcvrs ≤ bit
  waiting : system.link.ep6Pc = .testing
  framesKept : system.link.frames = frames

/-- With such a flag up the wait condition of the sender is not met. -/
theorem StaleFlag.blocks
    {bit : Nat}
    {frames : List Payload}
    (staleFlag : StaleFlag bit frames system) :
    system.link.sendFlags ≠ system.ep2.rcvrsMask := by
  intro complete
  obtain ⟨held, coherent⟩ := staleFlag.configured
  have masked := staleFlag.stale
  rw [complete, coherent.installed.testBit_rcvrsMask,
    decide_eq_true_eq] at masked
  exact absurd masked (Nat.not_lt.mpr staleFlag.inactive)

/-- Only a packet that asks for the receiver again gets the sender going. -/
theorem StaleFlag.step
    {bit : Nat}
    {frames : List Payload}
    {action : SystemAction total Sample}
    (staleFlag : StaleFlag bit frames system)
    (notAskedFor :
      ∀ count ∈ action.requestedCount?, min count total.count ≤ bit)
    (taken : systemStep cast usingIQfiles total system action = some next) :
    StaleFlag bit frames next := by
  have configured := staleFlag.configured.step taken
  cases action with
  | ep2 buffer =>
      obtain ⟨ep2Step, sameLink⟩ := systemStep_ep2_iff.mp taken
      obtain ⟨held, coherent⟩ := staleFlag.configured
      have after := (coherent.of_processEp2 ep2Step).installed.active
      refine ⟨configured, ?_, ?_, ?_, ?_⟩
      · rw [sameLink]
        exact staleFlag.stale
      · rw [after]
        cases selected : selectedRequest buffer with
        | none =>
            rw [Option.getD_none, ← coherent.installed.active]
            exact staleFlag.inactive
        | some request =>
            apply notAskedFor
            simp [SystemAction.requestedCount?, selected]
      · rw [sameLink]
        exact staleFlag.waiting
      · rw [sameLink]
        exact staleFlag.framesKept
  | link action =>
      obtain ⟨linkStep, sameEp2⟩ := systemStep_link_iff.mp taken
      have inactive : next.ep2.activeNumRcvrs ≤ bit := by
        rw [sameEp2]
        exact staleFlag.inactive
      cases action with
      | load rcvr buffer =>
          obtain ⟨_, _, isNext⟩ := FrameLink.step_load_iff.mp linkStep
          refine ⟨configured, ?_, inactive, ?_, ?_⟩
          · rw [← isNext, Nat.testBit_or, staleFlag.stale, Bool.true_or]
          · rw [← isNext]
            exact staleFlag.waiting
          · rw [← isNext]
            exact staleFlag.framesKept
      | leave rcvr =>
          obtain ⟨_, _, _, isNext⟩ := FrameLink.step_leave_iff.mp linkStep
          refine ⟨configured, ?_, inactive, ?_, ?_⟩
          · rw [← isNext]
            exact staleFlag.stale
          · rw [← isNext]
            exact staleFlag.waiting
          · rw [← isNext]
            exact staleFlag.framesKept
      | test =>
          exact absurd (FrameLink.step_test_iff.mp linkStep).2.1
            staleFlag.blocks
      | send =>
          have holding := (FrameLink.step_send_iff.mp linkStep).1
          rw [staleFlag.waiting] at holding
          cases holding
      | clear =>
          have sent := (FrameLink.step_clear_iff.mp linkStep).1
          rw [staleFlag.waiting] at sent
          cases sent

/-- No run of the threads alone sends another frame. -/
theorem StaleFlag.run
    {bit : Nat}
    {frames : List Payload}
    (staleFlag : StaleFlag bit frames system)
    {actions : List (SystemAction total Sample)}
    (notAskedFor :
      ∀ action ∈ actions, ∀ count ∈ action.requestedCount?,
        min count total.count ≤ bit)
    (reached :
      PartialRun.run (systemStep cast usingIQfiles total) system actions =
        some next) :
    StaleFlag bit frames next := by
  refine PartialRun.invariant_of_everyStep (StaleFlag bit frames)
    StaleFlag.step staleFlag ?_ reached
  intro earlier action later state after split _ _
  exact notAskedFor action (by simp [split])

end System

/-- Samples that are all 257: high and low byte are one. -/
def onesBuffer : IqBuffer Int where
  iqSampleOffset := 0
  iqSamples := fun _ => 257

/-- The receiver of the first of two dongles. -/
def firstRcvr : Fin twoRcvrs.count :=
  ⟨0, by decide⟩

/-- The receiver of the second of two dongles. -/
def secondRcvr : Fin twoRcvrs.count :=
  ⟨1, by decide⟩

/--
Two receivers are asked for and the second writes its packet; then one receiver
is asked for and the first writes its packet.
-/
def shrinkingRun : List (SystemAction twoRcvrs Int) :=
  [.ep2 (countPacket 2), .link (.load secondRcvr onesBuffer),
    .ep2 (countPacket 1), .link (.load firstRcvr onesBuffer)]

/-- The shrinking run ends with the flags of both receivers and one receiver active. -/
theorem shrinkingRun_reaches :
    (PartialRun.run (systemStep wholeSamples false twoRcvrs)
        (FrameSystem.initial twoRcvrs) shrinkingRun).map
      (fun system =>
        (system.link.sendFlags, system.ep2.activeNumRcvrs,
          system.link.ep6Pc, system.link.frames.length)) =
      some (3, 1, .testing, 0) := by
  decide

/--
After the shrinking run every active receiver has raised its bit, but the flag
word is not the mask, and whatever the threads do no frame is sent any more.
-/
theorem sendFlags_not_in_mask :
    ∃ system,
      PartialRun.run (systemStep wholeSamples false twoRcvrs)
          (FrameSystem.initial twoRcvrs) shrinkingRun = some system ∧
        ¬ FlagsInMask system ∧
        (∀ rcvr < system.ep2.activeNumRcvrs,
          system.link.sendFlags.testBit rcvr = true) ∧
        ∀ (actions : List
            (FrameAction (Fin twoRcvrs.count) (IqBuffer Int))) final,
          PartialRun.run (systemStep wholeSamples false twoRcvrs) system
              (actions.map SystemAction.link) = some final →
            final.link.sendFlags ≠ final.ep2.rcvrsMask ∧
              final.link.frames = [] := by
  obtain ⟨system, reached, observed⟩ :=
    Option.map_eq_some_iff.mp shrinkingRun_reaches
  simp only [Prod.mk.injEq] at observed
  obtain ⟨flags, active, waiting, noFrames⟩ := observed
  have configured : Configured system := Configured.initial.run reached
  have secondUp : system.link.sendFlags.testBit 1 = true := by
    rw [flags]
    decide
  have staleFlag : StaleFlag 1 [] system :=
    ⟨configured, secondUp, Nat.le_of_eq active, waiting,
      List.length_eq_zero_iff.mp noFrames⟩
  refine ⟨system, reached, ?_, ?_, ?_⟩
  · intro flagsInMask
    have secondActive := configured.flagsInMask_iff.mp flagsInMask 1 secondUp
    omega
  · intro rcvr below
    have isFirst : rcvr = 0 := by omega
    rw [isFirst, flags]
    decide
  · intro actions final reachedFinal
    have still : StaleFlag 1 [] final := by
      refine staleFlag.run ?_ reachedFinal
      intro action member count asked
      obtain ⟨linkAction, _, isLink⟩ := List.mem_map.mp member
      rw [← isLink] at asked
      cases asked
    exact ⟨still.blocks, still.framesKept⟩

end LibRtlSdr.Hpsdr
