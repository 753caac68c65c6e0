import LibRtlSdr.HpsdrFrameSystem

namespace LibRtlSdr.Hpsdr

/-!
# Bytes that nobody writes

In live mode `load_packet` steps over the microphone bytes and over the third
byte of every value, and `format_payload` runs only once.  What such a byte holds
in a frame is therefore what it held when the layout in force was installed:
zero from `format_payload`, or a data byte of an earlier layout.
-/

/--
The positions that a layout of `count` receivers leaves to the microphone and to
the low-order bytes of the values.
-/
def Skipped (count position : Nat) : Prop :=
  ∃ slot < 2 * slotsPerBank count,
    (∃ mic < 2, position = slotStart count slot + (6 * count + mic)) ∨
      ∃ channel < count, ∃ component < 2,
        position =
          slotStart count slot + (6 * channel + 3 * component + 2)

/-- Every byte that the layout of `count` receivers skips is zero. -/
def SkippedZero (count : Nat) (payload : Payload) : Prop :=
  ∀ position, Skipped count position → payload position = 0

/-- A skipped byte lies in one of the two banks. -/
theorem Skipped.in_bank
    {count position : Nat}
    (skipped : Skipped count position) :
    (16 ≤ position ∧ position < 520) ∨
      (528 ≤ position ∧ position < 1032) := by
  obtain ⟨slot, inFrame, place⟩ := skipped
  have bankSize := slotsPerBank_mul_le count
  have within :
      ∃ within < slotStride count,
        position = slotStart count slot + within := by
    rcases place with ⟨mic, micLt, isMic⟩ |
      ⟨channel, channelLt, component, componentLt, isLow⟩
    · exact ⟨_, by unfold slotStride; omega, isMic⟩
    · exact ⟨_, by unfold slotStride; omega, isLow⟩
  obtain ⟨within, inSlot, isPosition⟩ := within
  unfold slotStart at isPosition
  split_ifs at isPosition with lower
  · have next := Nat.mul_le_mul_right (slotStride count)
      (Nat.succ_le_of_lt lower)
    rw [Nat.succ_mul] at next
    omega
  · have upper :
        slot - slotsPerBank count < slotsPerBank count := by
      omega
    have next := Nat.mul_le_mul_right (slotStride count)
      (Nat.succ_le_of_lt upper)
    rw [Nat.succ_mul] at next
    omega

/-- `format_payload` leaves zeros outside the headers. -/
theorem formatPayload_skipped (count : Nat) :
    SkippedZero count formatPayload := by
  intro position skipped
  have inBank := skipped.in_bank
  unfold formatPayload
  rw [if_neg (by omega), if_neg (by omega), if_neg (by omega)]

/-- The sequence number lies in the header. -/
theorem plugSequence_skipped
    {count position : Nat}
    (skipped : Skipped count position)
    (counter : UInt32)
    (payload : Payload) :
    plugSequence counter payload position = payload position := by
  have inBank := skipped.in_bank
  exact plugSequence_of_le (by omega) counter payload

section Live

variable
  {Sample : Type}
  {cast : SampleCast Sample}
  {total : RcvrTotal}
  {system next : FrameSystem total}

/-- No packet of the layout in force stores a skipped byte. -/
theorem packetPatch_skipped
    {state : Ep2State}
    {position : Nat}
    (skipped : Skipped (frameRcvrs state) position)
    (rcvr : Nat)
    (buffer : IqBuffer Sample) :
    packetPatch cast false state rcvr buffer position = none := by
  obtain ⟨slot, inFrame, place⟩ := skipped
  rcases place with ⟨mic, micLt, isMic⟩ |
    ⟨channel, channelLt, component, componentLt, isLow⟩
  · rw [isMic, packetPatch_slot _ _ _ _ _ inFrame
      (by unfold slotStride; omega)]
    exact if_neg (fun both => absurd both.1 (by omega))
  · have lowByte : (6 * channel + 3 * component + 2) % 3 = 2 := by
      omega
    rw [isLow, packetPatch_slot _ _ _ _ _ inFrame
      (by unfold slotStride; omega)]
    unfold slotCell
    rw [lowByte]
    split_ifs <;> rfl

/-- A step keeps the bytes that the layout in force skips. -/
theorem Configured.skipped_step
    {action : SystemAction total Sample}
    (configured : Configured system)
    (taken : systemStep cast false total system action = some next)
    {position : Nat}
    (skipped : Skipped (frameRcvrs system.ep2) position) :
    next.link.payload position = system.link.payload position := by
  cases action with
  | ep2 buffer =>
      rw [(systemStep_ep2_iff.mp taken).2]
  | link action =>
      have linkStep := (systemStep_link_iff.mp taken).1
      cases action with
      | load rcvr buffer =>
          obtain ⟨held, coherent⟩ := configured
          obtain ⟨_, _, isNext⟩ := FrameLink.step_load_iff.mp linkStep
          rw [← isNext]
          show (loadPacket cast false system.ep2 rcvr buffer
            system.link.payload).payload position = _
          rw [coherent.installed.loadPacket_payload rcvr.isLt]
          exact OverlayWrites.overlay_of_none
            (packetPatch_skipped skipped rcvr buffer)
      | leave rcvr =>
          obtain ⟨_, _, _, isNext⟩ := FrameLink.step_leave_iff.mp linkStep
          rw [← isNext]
      | test =>
          obtain ⟨_, _, isNext⟩ := FrameLink.step_test_iff.mp linkStep
          rw [← isNext]
          exact plugSequence_skipped skipped _ _
      | send =>
          obtain ⟨_, isNext⟩ := FrameLink.step_send_iff.mp linkStep
          rw [← isNext]
      | clear =>
          obtain ⟨_, isNext⟩ := FrameLink.step_clear_iff.mp linkStep
          rw [← isNext]

/-- While the layout stays, the bytes it skips stay. -/
theorem Configured.skipped_run
    (configured : Configured system)
    {count : Nat}
    {actions : List (SystemAction total Sample)}
    (sameLayout :
      PartialRun.EveryState (systemStep cast false total)
        (fun state => frameRcvrs state.ep2 = count) system actions)
    (reached :
      PartialRun.run (systemStep cast false total) system actions =
        some next)
    {position : Nat}
    (skipped : Skipped count position) :
    next.link.payload position = system.link.payload position := by
  have kept :
      Configured next ∧
        next.link.payload position = system.link.payload position := by
    refine PartialRun.invariant_of_everyStep
      (fun state : FrameSystem total => Configured state ∧
        state.link.payload position = system.link.payload position)
      ?_ ⟨configured, rfl⟩
      (sameLayout.everyStep) reached
    intro state action after before inLayout taken
    refine ⟨before.1.step taken, ?_⟩
    rw [before.1.skipped_step taken (by rw [inLayout]; exact skipped),
      before.2]
  exact kept.2

/-- A packet that asks for a receiver count leaves the payload alone. -/
theorem payload_of_requestedCount
    {action : SystemAction total Sample}
    {count : Nat}
    (asks : action.requestedCount? = some count)
    (taken : systemStep cast false total system action = some next) :
    next.link.payload = system.link.payload := by
  cases action with
  | ep2 buffer =>
      rw [(systemStep_ep2_iff.mp taken).2]
  | link action =>
      cases asks

/-- Every packet among the actions that asks for a receiver count asks for this one. -/
def CountKept
    (count : Nat)
    (actions : List (SystemAction total Sample)) : Prop :=
  ∀ action ∈ actions, ∀ asked ∈ action.requestedCount?, asked = count

/-- While only the installed count is asked for, the layout stays. -/
theorem Configured.everyState_of_countKept
    (configured : Configured system)
    {count : Nat}
    (inLayout : frameRcvrs system.ep2 = count)
    {actions : List (SystemAction total Sample)}
    (countKept : CountKept count actions) :
    PartialRun.EveryState (systemStep cast false total)
      (fun state => frameRcvrs state.ep2 = count) system actions := by
  intro earlier later state split reached
  have onlyThisCount :
      PartialRun.EveryStep (systemStep cast false total)
        (fun _ action => ∀ asked ∈ action.requestedCount?, asked = count)
        system earlier := by
    intro first action rest _ _ splitEarlier _ _
    exact countKept action (by simp [split, splitEarlier])
  have both : Configured state ∧ frameRcvrs state.ep2 = count := by
    refine PartialRun.invariant_of_everyStep
      (fun state : FrameSystem total =>
        Configured state ∧ frameRcvrs state.ep2 = count)
      ?_ ⟨configured, inLayout⟩ onlyThisCount reached
    intro state action after before kept taken
    refine ⟨before.1.step taken, ?_⟩
    rw [before.1.frameRcvrs_step taken, before.2]
    cases asks : action.requestedCount? with
    | none =>
        rfl
    | some asked =>
        exact kept asked asks
  exact both.2

/-- If the layout stays, only the installed count is asked for. -/
theorem Configured.countKept_of_everyState
    (configured : Configured system)
    {count : Nat}
    {actions : List (SystemAction total Sample)}
    (sameLayout :
      PartialRun.EveryState (systemStep cast false total)
        (fun state => frameRcvrs state.ep2 = count) system actions)
    (reached :
      PartialRun.run (systemStep cast false total) system actions =
        some next) :
    CountKept count actions := by
  intro action member asked asks
  obtain ⟨earlier, later, split⟩ := List.append_of_mem member
  have regroup : actions = (earlier ++ [action]) ++ later := by
    simp [split]
  rw [regroup] at reached
  obtain ⟨after, reachedAfter, _⟩ :=
    PartialRun.run_append_eq_some.mp reached
  obtain ⟨before, reachedBefore, taken⟩ :=
    PartialRun.run_concat_eq_some.mp reachedAfter
  have configuredBefore : Configured before := configured.run reachedBefore
  have layoutAfter : frameRcvrs after.ep2 = count :=
    sameLayout (earlier ++ [action]) later after regroup reachedAfter
  rw [configuredBefore.frameRcvrs_step taken, Option.mem_def.mp asks,
    Option.getD_some] at layoutAfter
  exact layoutAfter

/--
A frame that is sent has zeros in all positions that the layout in force leaves
to the microphone and to the low-order bytes.
-/
def SendsZeros
    (system : FrameSystem total)
    (action : SystemAction total Sample) : Prop :=
  action = .link .send →
    SkippedZero (frameRcvrs system.ep2) system.link.payload

variable (cast total)

/--
The side condition of a run: when a packet changes the receiver count, and a
frame is sent before the count changes again, then all bytes that the new layout
skips are zero at the change.
-/
def CleanChanges (actions : List (SystemAction total Sample)) : Prop :=
  ∀ earlier change middle later count before,
    actions = earlier ++ change :: (middle ++ .link .send :: later) →
    PartialRun.run (systemStep cast false total)
        (FrameSystem.initial total) earlier = some before →
    change.requestedCount? = some count →
    frameRcvrs before.ep2 ≠ count →
    CountKept count middle →
    (PartialRun.run (systemStep cast false total) before
        (change :: (middle ++ [.link .send]))).isSome →
    SkippedZero count before.link.payload

variable {cast total}

/-- If all frames are sent clean, the changes they are sent under were clean. -/
theorem cleanChanges_of_sendsZeros
    {actions : List (SystemAction total Sample)}
    (everySend :
      PartialRun.EveryStep (systemStep cast false total) SendsZeros
        (FrameSystem.initial total) actions) :
    CleanChanges cast total actions := by
  intro earlier change middle later count before split
    reachedBefore asks differs countKept sent position skipped
  obtain ⟨final, reachedFinal⟩ := Option.isSome_iff_exists.mp sent
  rw [PartialRun.run_cons, Option.bind_eq_some_iff] at reachedFinal
  obtain ⟨after, changed, reachedRest⟩ := reachedFinal
  obtain ⟨sender, reachedSender, sendStep⟩ :=
    PartialRun.run_concat_eq_some.mp reachedRest
  have configuredBefore : Configured before :=
    Configured.initial.run reachedBefore
  have configuredAfter := configuredBefore.step changed
  have layoutAfter : frameRcvrs after.ep2 = count := by
    rw [configuredBefore.frameRcvrs_step changed, asks, Option.getD_some]
  have sameLayout :
      PartialRun.EveryState (systemStep cast false total)
        (fun state => frameRcvrs state.ep2 = count) after middle :=
    configuredAfter.everyState_of_countKept layoutAfter countKept
  have layoutSender : frameRcvrs sender.ep2 = count :=
    sameLayout middle [] sender (by simp) reachedSender
  have reachedWhole :
      PartialRun.run (systemStep cast false total)
          (FrameSystem.initial total) (earlier ++ change :: middle) =
        some sender := by
    rw [PartialRun.run_append, reachedBefore, Option.bind_some,
      PartialRun.run_cons, changed, Option.bind_some, reachedSender]
  have zeros :=
    everySend (earlier ++ change :: middle) (.link .send) later sender
      final (by simp [split]) reachedWhole sendStep rfl
  rw [layoutSender] at zeros
  rw [← payload_of_requestedCount asks changed,
    ← configuredAfter.skipped_run sameLayout reachedSender skipped]
  exact zeros position skipped

/--
What a frame shows in a skipped byte was there at the last change of the count,
or comes from `format_payload`.
-/
theorem sendsZeros_of_cleanChanges
    {actions : List (SystemAction total Sample)}
    (clean : CleanChanges cast total actions) :
    PartialRun.EveryStep (systemStep cast false total) SendsZeros
      (FrameSystem.initial total) actions := by
  intro earlier action later state next split reached taken isSend
    position skipped
  subst isSend
  rcases PartialRun.exists_last_change
      (fun state : FrameSystem total => frameRcvrs state.ep2) reached with
    fromStart | ⟨before, change, middle, start, after, splitEarlier,
      reachedStart, changed, differs, reachedState, sameLayout⟩
  · rw [Configured.initial.skipped_run fromStart reached skipped]
    exact formatPayload_skipped _ position skipped
  · have configuredStart : Configured start :=
      Configured.initial.run reachedStart
    have layoutAfter : frameRcvrs after.ep2 = frameRcvrs state.ep2 :=
      sameLayout [] middle after rfl rfl
    have law := configuredStart.frameRcvrs_step changed
    cases asks : change.requestedCount? with
    | none =>
        rw [asks, Option.getD_none] at law
        exact absurd law.symm differs
    | some count =>
        rw [asks, Option.getD_some, layoutAfter] at law
        have zeros : SkippedZero count start.link.payload := by
          refine clean before change middle later count start ?_
            reachedStart asks ?_ ?_ ?_
          · rw [split, splitEarlier, List.append_assoc,
              List.cons_append]
          · rw [← law, ← layoutAfter]
            exact differs
          · rw [← law]
            exact (configuredStart.step changed).countKept_of_everyState
              sameLayout reachedState
          · rw [PartialRun.run_cons, changed, Option.bind_some,
              PartialRun.run_concat, reachedState, Option.bind_some,
              taken]
            rfl
        rw [(configuredStart.step changed).skipped_run sameLayout
          reachedState skipped, payload_of_requestedCount asks changed]
        exact zeros position (law ▸ skipped)

/--
In every run from `format_payload` on: all frames that are sent have zeros in
the microphone and low-order positions of the layout in force, exactly when the
bytes skipped by a new layout are zero at each change under which a frame is
sent.
-/
theorem sent_frames_skipped_zero_iff
    (cast : SampleCast Sample)
    (total : RcvrTotal)
    (actions : List (SystemAction total Sample)) :
    PartialRun.EveryStep (systemStep cast false total) SendsZeros
        (FrameSystem.initial total) actions ↔
      CleanChanges cast total actions :=
  ⟨cleanChanges_of_sendsZeros, sendsZeros_of_cleanChanges⟩

end Live

/-- The receiver of the only dongle. -/
def onlyRcvr : Fin oneRcvr.count :=
  ⟨0, by decide⟩

/--
One dongle: a frame of the receiver and a copy is sent; then one receiver is
asked for, and a frame of it alone is packed and sent.
-/
def droppedCopyRun : List (SystemAction oneRcvr Int) :=
  [.ep2 (countPacket 2), .link (.load onlyRcvr onesBuffer), .link .test,
    .link .send, .link .clear, .link (.leave onlyRcvr),
    .ep2 (countPacket 1), .link (.load onlyRcvr onesBuffer), .link .test]

/-- The globals with a receiver and a copy. -/
def copyState : Ep2State :=
  (processEp2 oneRcvr .initial (countPacket 2)).getD .initial

/-- The globals with the receiver alone again. -/
def singleState : Ep2State :=
  (processEp2 oneRcvr copyState (countPacket 1)).getD .initial

theorem droppedCopyRun_reaches :
    (PartialRun.run (systemStep wholeSamples false oneRcvr)
        (FrameSystem.initial oneRcvr) droppedCopyRun).map
      (fun system =>
        (system.ep2, system.link.payload, system.link.ep6Pc)) =
      some
        (singleState,
          plugSequence 1
            (loadPacket wholeSamples false singleState 0 onesBuffer
              (plugSequence 0
                (loadPacket wholeSamples false copyState 0 onesBuffer
                  formatPayload).payload)).payload,
          .holding) := by
  rfl

theorem copyState_coherent :
    ∃ held, Coherent oneRcvr held copyState := by
  have handled :
      processEp2 oneRcvr .initial (countPacket 2) = some copyState :=
    rfl
  exact ⟨_, (Coherent.initial oneRcvr).of_processEp2 handled⟩

theorem singleState_coherent :
    ∃ held, Coherent oneRcvr held singleState := by
  have handled :
      processEp2 oneRcvr copyState (countPacket 1) = some singleState :=
    rfl
  obtain ⟨held, coherent⟩ := copyState_coherent
  exact ⟨_, coherent.of_processEp2 handled⟩

/-- Byte 22 starts the copy's value in the first frame. -/
theorem copyState_byte (payload : Payload) :
    (loadPacket wholeSamples false copyState 0 onesBuffer payload).payload
        22 = 1 := by
  obtain ⟨held, coherent⟩ := copyState_coherent
  have frameIs : frameRcvrs copyState = 2 := by decide
  have stored :
      packetPatch wholeSamples false copyState 0 onesBuffer
          (slotStart (frameRcvrs copyState) 0 + (6 * 1 + 3 * 0 + 0)) =
        componentByte wholeSamples false (onesBuffer.outBuf (2 * 0 + 0))
          0 :=
    coherent.installed.packetPatch_column (by decide) (by decide)
      (by decide) (by decide) (by decide) (by decide)
  rw [coherent.installed.loadPacket_payload (by decide)]
  exact OverlayWrites.overlay_of_some stored

/--
After the dropped copy the frame of the single receiver is sent with data of the
copy in byte 22, its first microphone byte.
-/
theorem sent_frames_not_skipped_zero :
    ¬ PartialRun.EveryStep (systemStep wholeSamples false oneRcvr)
      SendsZeros (FrameSystem.initial oneRcvr)
      (droppedCopyRun ++ [.link .send]) := by
  intro everySend
  obtain ⟨system, reached, observed⟩ :=
    Option.map_eq_some_iff.mp droppedCopyRun_reaches
  simp only [Prod.mk.injEq] at observed
  obtain ⟨isSingle, payload, holding⟩ := observed
  have sendStep :
      systemStep wholeSamples false oneRcvr system (.link .send) =
        some { system with
          link := { system.link with
            frames := system.link.frames ++ [system.link.payload]
            ep6Pc := .sent } } := by
    simp [systemStep, FrameLink.step, holding]
  have zeros :=
    everySend droppedCopyRun (.link .send) [] system _ rfl reached
      sendStep rfl
  have frameIs : frameRcvrs singleState = 1 := by decide
  have microphone : Skipped 1 22 :=
    ⟨0, by decide, .inl ⟨0, by decide, by decide⟩⟩
  have isZero : system.link.payload 22 = 0 := by
    apply zeros
    rw [isSingle, frameIs]
    exact microphone
  obtain ⟨held, coherent⟩ := singleState_coherent
  have isOne : system.link.payload 22 = 1 := by
    rw [payload, plugSequence_skipped microphone,
      coherent.installed.loadPacket_payload (by decide),
      OverlayWrites.overlay_of_none
        (packetPatch_skipped (by rw [frameIs]; exact microphone) _ _),
      plugSequence_skipped microphone, copyState_byte]
  rw [isOne] at isZero
  exact absurd isZero (by decide)

end LibRtlSdr.Hpsdr
