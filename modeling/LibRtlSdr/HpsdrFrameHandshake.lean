import LibRtlSdr.FlagWord
import LibRtlSdr.OverlayWrites
import LibRtlSdr.PartialRun
import Mathlib.Data.List.FinRange

namespace LibRtlSdr.Hpsdr

/-!
# The handshake between the receiver threads and `handler_ep6`

Each receiver thread calls `load_packet` again and again: under `send_lock` it
writes its part of the payload and raises its bit in `send_flags`, then it waits
under `done_send_lock` until the bit is clear.  The sender waits under
`send_lock` until all bits are up, takes `done_send_lock` as well, sends the
payload, gives `send_lock` back, and only then clears the flag word.

A step of the model is one section that a mutex protects, except that the
sender's overlapping sections are cut where the other threads can come in
between: after the test, after `sendto`, and after `send_flags = 0`.  A thread
that finds its condition unmet waits and tests again later, so the model has
no step for it.  What a receiver writes and how the sequence number is plugged
in are parameters; the payload itself is arbitrary.
-/

/-- Where a receiver thread stands. -/
inductive LoadPc where
  /-- Not in `load_packet`, or about to take `send_lock` in it. -/
  | outside
  /-- Past the section under `send_lock`, waiting for its bit to be cleared. -/
  | waiting
  deriving Repr, DecidableEq

/-- Where the sender thread stands. -/
inductive Ep6Pc where
  /-- Holds no lock: waits for the flags of all receivers. -/
  | testing
  /-- Holds `send_lock`: the flags were complete. -/
  | holding
  /-- Holds `done_send_lock` alone: the frame is sent. -/
  | sent
  deriving Repr, DecidableEq

/-- The shared variables, the program counters, and the frames sent so far. -/
structure FrameLink (Rcvr Payload : Type) where
  sendFlags : Nat
  payload : Payload
  counter : UInt32
  loadPc : Rcvr → LoadPc
  ep6Pc : Ep6Pc
  frames : List Payload

/-- What the threads read of the configuration and do to the payload. -/
structure FrameChannel (Rcvr Packet Payload : Type) where
  rcvrMask : Rcvr → Nat
  rcvrsMask : Nat
  loadPayload : Rcvr → Packet → Payload → Payload
  plugSequence : UInt32 → Payload → Payload

/-- The steps of the receiver threads and of the sender. -/
inductive FrameAction (Rcvr Packet : Type) where
  /-- `load_packet` under `send_lock`: write the packet, raise the bit. -/
  | load (rcvr : Rcvr) (packet : Packet)
  /-- `load_packet` under `done_send_lock`: the bit is clear, return. -/
  | leave (rcvr : Rcvr)
  /-- `handler_ep6`: the flags are complete, plug in the sequence number. -/
  | test
  /-- `handler_ep6`: take `done_send_lock`, `sendto`, release `send_lock`. -/
  | send
  /-- `handler_ep6`: `send_flags = 0`, wake the receivers, release the lock. -/
  | clear
  deriving Repr, DecidableEq

namespace FrameLink

variable {Rcvr Packet Payload : Type} [DecidableEq Rcvr]

/-- Before the first round: no flag is up and no thread has started. -/
def initial (payload : Payload) : FrameLink Rcvr Payload where
  sendFlags := 0
  payload := payload
  counter := 0
  loadPc := fun _ => .outside
  ep6Pc := .testing
  frames := []

/-- One step; there is none when the lock is taken or the condition is unmet. -/
def step
    (channel : FrameChannel Rcvr Packet Payload)
    (link : FrameLink Rcvr Payload) :
    FrameAction Rcvr Packet → Option (FrameLink Rcvr Payload)
  | .load rcvr packet =>
      if link.loadPc rcvr = .outside ∧ link.ep6Pc ≠ .holding then
        some { link with
          payload := channel.loadPayload rcvr packet link.payload
          sendFlags := link.sendFlags ||| channel.rcvrMask rcvr
          loadPc := Function.update link.loadPc rcvr .waiting }
      else
        none
  | .leave rcvr =>
      if link.loadPc rcvr = .waiting ∧ link.ep6Pc ≠ .sent ∧
          link.sendFlags &&& channel.rcvrMask rcvr = 0 then
        some { link with
          loadPc := Function.update link.loadPc rcvr .outside }
      else
        none
  | .test =>
      if link.ep6Pc = .testing ∧ link.sendFlags = channel.rcvrsMask then
        some { link with
          payload := channel.plugSequence link.counter link.payload
          counter := link.counter + 1
          ep6Pc := .holding }
      else
        none
  | .send =>
      if link.ep6Pc = .holding then
        some { link with
          frames := link.frames ++ [link.payload]
          ep6Pc := .sent }
      else
        none
  | .clear =>
      if link.ep6Pc = .sent then
        some { link with
          sendFlags := 0
          ep6Pc := .testing }
      else
        none

variable
  {channel : FrameChannel Rcvr Packet Payload}
  {link next : FrameLink Rcvr Payload}

/-- A packet is written by a thread outside, while `send_lock` is free. -/
theorem step_load_iff
    {rcvr : Rcvr}
    {packet : Packet} :
    step channel link (.load rcvr packet) = some next ↔
      link.loadPc rcvr = .outside ∧ link.ep6Pc ≠ .holding ∧
        { link with
          payload := channel.loadPayload rcvr packet link.payload
          sendFlags := link.sendFlags ||| channel.rcvrMask rcvr
          loadPc := Function.update link.loadPc rcvr .waiting } = next := by
  simp only [step, Option.ite_none_right_eq_some, Option.some.injEq,
    and_assoc]

/-- A thread returns once its bit is clear, while `done_send_lock` is free. -/
theorem step_leave_iff {rcvr : Rcvr} :
    step channel link (.leave rcvr) = some next ↔
      link.loadPc rcvr = .waiting ∧ link.ep6Pc ≠ .sent ∧
        link.sendFlags &&& channel.rcvrMask rcvr = 0 ∧
        { link with
          loadPc := Function.update link.loadPc rcvr .outside } = next := by
  simp only [step, Option.ite_none_right_eq_some, Option.some.injEq,
    and_assoc]

/-- The sender goes on when all flags are up. -/
theorem step_test_iff :
    step channel link .test = some next ↔
      link.ep6Pc = .testing ∧ link.sendFlags = channel.rcvrsMask ∧
        { link with
          payload := channel.plugSequence link.counter link.payload
          counter := link.counter + 1
          ep6Pc := .holding } = next := by
  simp only [step, Option.ite_none_right_eq_some, Option.some.injEq,
    and_assoc]

/-- The payload is sent under both locks. -/
theorem step_send_iff :
    step channel link .send = some next ↔
      link.ep6Pc = .holding ∧
        { link with
          frames := link.frames ++ [link.payload]
          ep6Pc := .sent } = next := by
  simp only [step, Option.ite_none_right_eq_some, Option.some.injEq]

/-- The flags are cleared under `done_send_lock` alone. -/
theorem step_clear_iff :
    step channel link .clear = some next ↔
      link.ep6Pc = .sent ∧
        { link with
          sendFlags := 0
          ep6Pc := .testing } = next := by
  simp only [step, Option.ite_none_right_eq_some, Option.some.injEq]

end FrameLink

/-! ## A fixed set of receivers -/

/-- `count` active receivers, with one bit each, as `process_ep2` installs them. -/
def activeChannel
    {Packet Payload : Type}
    (count : Nat)
    (loadPayload : Fin count → Packet → Payload → Payload)
    (plugSequence : UInt32 → Payload → Payload) :
    FrameChannel (Fin count) Packet Payload where
  rcvrMask := fun rcvr => 1 <<< rcvr.val
  rcvrsMask := FlagWord.wordOf (List.range count)
  loadPayload := loadPayload
  plugSequence := plugSequence

section Rounds

variable
  {Packet Payload : Type}
  {count : Nat}
  (loadPayload : Fin count → Packet → Payload → Payload)
  (plugSequence : UInt32 → Payload → Payload)
  (start : Payload)

/-- The packet that an action writes for `rcvr`, if it writes one. -/
def packetOf?
    (rcvr : Fin count) :
    FrameAction (Fin count) Packet → Option Packet
  | .load other packet =>
      if other = rcvr then some packet else none
  | _ =>
      none

/-- The packets of one receiver, call by call. -/
def packetsOf
    (rcvr : Fin count)
    (actions : List (FrameAction (Fin count) Packet)) :
    List Packet :=
  actions.filterMap (packetOf? rcvr)

/-- Write the packet of a receiver's call number `round`. -/
def loadRound
    (actions : List (FrameAction (Fin count) Packet))
    (round : Nat)
    (payload : Payload)
    (rcvr : Fin count) :
    Payload :=
  match (packetsOf rcvr actions)[round]? with
  | none =>
      payload
  | some packet =>
      loadPayload rcvr packet payload

/--
Frame number `round` is the frame before it, overwritten with exactly one packet
of every receiver, that of its call number `round`, and numbered `round`.
-/
def FrameHoldsRound
    (actions : List (FrameAction (Fin count) Packet))
    (previous frame : Payload)
    (round : Nat) : Prop :=
  (∀ rcvr, round < (packetsOf rcvr actions).length) ∧
    ∃ order : List (Fin count),
      order.Perm (List.finRange count) ∧
        frame =
          plugSequence (UInt32.ofNat round)
            (order.foldl (loadRound loadPayload actions round) previous)

@[simp] theorem packetsOf_concat
    (rcvr : Fin count)
    (actions : List (FrameAction (Fin count) Packet))
    (action : FrameAction (Fin count) Packet) :
    packetsOf rcvr (actions ++ [action]) =
      packetsOf rcvr actions ++ (packetOf? rcvr action).toList := by
  unfold packetsOf
  rw [List.filterMap_append]
  cases taken : packetOf? rcvr action <;> simp [taken]

/-- Later actions do not change a packet that was already written. -/
theorem loadRound_concat
    {rcvr : Fin count}
    {actions : List (FrameAction (Fin count) Packet)}
    {round : Nat}
    (written : round < (packetsOf rcvr actions).length)
    (action : FrameAction (Fin count) Packet)
    (payload : Payload) :
    loadRound loadPayload (actions ++ [action]) round payload rcvr =
      loadRound loadPayload actions round payload rcvr := by
  unfold loadRound
  rw [packetsOf_concat, List.getElem?_append_left written]

theorem foldl_loadRound_concat
    {order : List (Fin count)}
    {actions : List (FrameAction (Fin count) Packet)}
    {round : Nat}
    (written : ∀ rcvr ∈ order, round < (packetsOf rcvr actions).length)
    (action : FrameAction (Fin count) Packet)
    (payload : Payload) :
    order.foldl (loadRound loadPayload (actions ++ [action]) round) payload =
      order.foldl (loadRound loadPayload actions round) payload := by
  apply List.foldl_ext
  intro current rcvr member
  exact loadRound_concat loadPayload (written rcvr member) action current

theorem FrameHoldsRound.concat
    {actions : List (FrameAction (Fin count) Packet)}
    {previous frame : Payload}
    {round : Nat}
    (holds :
      FrameHoldsRound loadPayload plugSequence actions previous frame round)
    (action : FrameAction (Fin count) Packet) :
    FrameHoldsRound loadPayload plugSequence (actions ++ [action])
      previous frame round := by
  obtain ⟨written, order, everyRcvr, frameIs⟩ := holds
  refine ⟨?_, order, everyRcvr, ?_⟩
  · intro rcvr
    rw [packetsOf_concat, List.length_append]
    exact Nat.lt_of_lt_of_le (written rcvr) (Nat.le_add_right _ _)
  · rw [foldl_loadRound_concat loadPayload
      (fun rcvr _ => written rcvr)]
    exact frameIs

/-- The frame sent last; the payload at the start when there is none. -/
def lastFrame
    (link : FrameLink (Fin count) Payload) :
    Payload :=
  link.frames.getLastD start

/-- Every frame sent so far holds its round. -/
def FramesHold
    (actions : List (FrameAction (Fin count) Packet))
    (frames : List Payload) : Prop :=
  ∀ round frame,
    frames[round]? = some frame →
    FrameHoldsRound loadPayload plugSequence actions
      ((frames.take round).getLastD start) frame round

/--
A round is open: the receivers in `filled` have written their packet of this
round, in that order, and wait; the others have written all rounds before.
-/
structure OpenRound
    (actions : List (FrameAction (Fin count) Packet))
    (filled : List (Fin count))
    (link : FrameLink (Fin count) Payload) : Prop where
  nodup :
    filled.Nodup
  flags :
    link.sendFlags = FlagWord.wordOf (filled.map Fin.val)
  written :
    ∀ rcvr,
      (packetsOf rcvr actions).length =
        link.frames.length + if rcvr ∈ filled then 1 else 0
  waits :
    ∀ rcvr ∈ filled, link.loadPc rcvr = .waiting
  sender :
    (link.ep6Pc = .testing ∧
        link.counter = UInt32.ofNat link.frames.length ∧
        link.payload =
          filled.foldl (loadRound loadPayload actions link.frames.length)
            (lastFrame start link)) ∨
      (link.ep6Pc = .holding ∧
        (∀ rcvr, rcvr ∈ filled) ∧
        link.counter = UInt32.ofNat (link.frames.length + 1) ∧
        link.payload =
          plugSequence (UInt32.ofNat link.frames.length)
            (filled.foldl (loadRound loadPayload actions link.frames.length)
              (lastFrame start link)))

/-- The frame of a round is out and the flags are still up: everybody waits. -/
structure SentRound
    (actions : List (FrameAction (Fin count) Packet))
    (link : FrameLink (Fin count) Payload) : Prop where
  sender : link.ep6Pc = .sent
  written : ∀ rcvr, (packetsOf rcvr actions).length = link.frames.length
  waits : ∀ rcvr, link.loadPc rcvr = .waiting
  counter : link.counter = UInt32.ofNat link.frames.length
  payload : link.payload = lastFrame start link

/-- The invariant of the handshake. -/
structure HandshakeInvariant
    (actions : List (FrameAction (Fin count) Packet))
    (link : FrameLink (Fin count) Payload) : Prop where
  frames :
    FramesHold loadPayload plugSequence start actions link.frames
  round :
    (∃ filled,
      OpenRound loadPayload plugSequence start actions filled link) ∨
      SentRound start actions link

/-! ## What each step preserves -/

section Steps

variable
  {loadPayload plugSequence start}
  {actions : List (FrameAction (Fin count) Packet)}
  {link next : FrameLink (Fin count) Payload}

/-- Frames that are out keep what they hold, whatever happens later. -/
theorem FramesHold.concat
    {frames : List Payload}
    (holds : FramesHold loadPayload plugSequence start actions frames)
    (action : FrameAction (Fin count) Packet) :
    FramesHold loadPayload plugSequence start (actions ++ [action])
      frames := by
  intro round frame sentFrame
  exact (holds round frame sentFrame).concat loadPayload plugSequence action

/-- One more frame, built on the last one. -/
theorem FramesHold.extend
    {frames : List Payload}
    {frame : Payload}
    (holds : FramesHold loadPayload plugSequence start actions frames)
    (holdsRound :
      FrameHoldsRound loadPayload plugSequence actions
        (frames.getLastD start) frame frames.length) :
    FramesHold loadPayload plugSequence start actions
      (frames ++ [frame]) := by
  intro round sentFrame isSent
  by_cases earlier : round < frames.length
  · rw [List.getElem?_append_left earlier] at isSent
    rw [List.take_append_of_le_length (Nat.le_of_lt earlier)]
    exact holds round sentFrame isSent
  · have isLast : round = frames.length := by
      have bounded := (List.getElem?_eq_some_iff.mp isSent).1
      rw [List.length_append, List.length_singleton] at bounded
      omega
    subst isLast
    rw [List.getElem?_concat_length, Option.some.injEq] at isSent
    subst isSent
    rw [List.take_left]
    exact holdsRound

/-- A step that writes no packet leaves the written packets alone. -/
theorem packetsOf_concat_of_none
    {action : FrameAction (Fin count) Packet}
    (silent : ∀ rcvr, packetOf? rcvr action = none)
    (rcvr : Fin count) :
    packetsOf rcvr (actions ++ [action]) = packetsOf rcvr actions := by
  rw [packetsOf_concat, silent, Option.toList_none, List.append_nil]

/-- Such a step changes neither a partly filled payload nor a full one. -/
theorem foldl_loadRound_concat_of_none
    {action : FrameAction (Fin count) Packet}
    (silent : ∀ rcvr, packetOf? rcvr action = none)
    (filled : List (Fin count))
    (round : Nat)
    (payload : Payload) :
    filled.foldl (loadRound loadPayload (actions ++ [action]) round)
        payload =
      filled.foldl (loadRound loadPayload actions round) payload := by
  apply List.foldl_ext
  intro current rcvr _
  simp only [loadRound, packetsOf_concat_of_none silent]

namespace OpenRound

variable {filled : List (Fin count)}

/-- A receiver outside `load_packet` has not written its packet of the round. -/
theorem not_filled_of_outside
    (openRound :
      OpenRound loadPayload plugSequence start actions filled link)
    {rcvr : Fin count}
    (outside : link.loadPc rcvr = .outside) :
    rcvr ∉ filled := by
  intro member
  rw [openRound.waits rcvr member] at outside
  exact absurd outside (by decide)

/-- A receiver whose bit is clear has not written its packet of the round. -/
theorem not_filled_of_clear
    (openRound :
      OpenRound loadPayload plugSequence start actions filled link)
    {rcvr : Fin count}
    (clear : link.sendFlags &&& 1 <<< rcvr.val = 0) :
    rcvr ∉ filled := by
  intro member
  rw [openRound.flags, FlagWord.and_one_shiftLeft_eq_zero_iff,
    FlagWord.testBit_wordOf] at clear
  have listed : rcvr.val ∈ filled.map Fin.val :=
    List.mem_map_of_mem member
  exact absurd listed (by simpa using clear)

/-- Complete flags mean that every receiver has written its packet. -/
theorem filled_of_complete
    (openRound :
      OpenRound loadPayload plugSequence start actions filled link)
    (complete : link.sendFlags = FlagWord.wordOf (List.range count))
    (rcvr : Fin count) :
    rcvr ∈ filled := by
  rw [openRound.flags, FlagWord.wordOf_eq_iff] at complete
  have listed : rcvr.val ∈ filled.map Fin.val :=
    (complete rcvr.val).mpr (List.mem_range.mpr rcvr.isLt)
  obtain ⟨other, member, sameIndex⟩ := List.mem_map.mp listed
  rw [← Fin.ext sameIndex]
  exact member

/-- The frame of a full round holds one packet of everybody. -/
theorem holdsRound
    (openRound :
      OpenRound loadPayload plugSequence start actions filled link)
    (full : ∀ rcvr, rcvr ∈ filled) :
    FrameHoldsRound loadPayload plugSequence actions
      (lastFrame start link)
      (plugSequence (UInt32.ofNat link.frames.length)
        (filled.foldl (loadRound loadPayload actions link.frames.length)
          (lastFrame start link)))
      link.frames.length := by
  refine ⟨?_, filled, ?_, rfl⟩
  · intro rcvr
    rw [openRound.written rcvr, if_pos (full rcvr)]
    exact Nat.lt_succ_self _
  · rw [List.perm_ext_iff_of_nodup openRound.nodup
      (List.nodup_finRange count)]
    intro rcvr
    exact iff_of_true (full rcvr) (List.mem_finRange rcvr)

/-- `load_packet` under `send_lock`: one more receiver has filled its part. -/
theorem load
    (openRound :
      OpenRound loadPayload plugSequence start actions filled link)
    {rcvr : Fin count}
    {packet : Packet}
    (taken :
      FrameLink.step (activeChannel count loadPayload plugSequence) link
        (.load rcvr packet) = some next) :
    next.frames = link.frames ∧
      OpenRound loadPayload plugSequence start
        (actions ++ [.load rcvr packet]) (filled ++ [rcvr]) next := by
  obtain ⟨outside, free, rfl⟩ := FrameLink.step_load_iff.mp taken
  have fresh : rcvr ∉ filled := openRound.not_filled_of_outside outside
  have ownLength : (packetsOf rcvr actions).length = link.frames.length := by
    rw [openRound.written rcvr, if_neg fresh, Nat.add_zero]
  refine ⟨rfl, ⟨?_, ?_, ?_, ?_, ?_⟩⟩
  · rw [List.nodup_append]
    refine ⟨openRound.nodup, List.nodup_singleton rcvr, ?_⟩
    intro earlier member other isLast same
    rw [List.mem_singleton] at isLast
    exact fresh (isLast ▸ same ▸ member)
  · show link.sendFlags ||| 1 <<< rcvr.val = _
    rw [openRound.flags, List.map_append, List.map_singleton,
      FlagWord.wordOf_concat]
  · intro other
    rw [packetsOf_concat, List.length_append, openRound.written other]
    by_cases same : other = rcvr
    · subst same
      simp [packetOf?, fresh]
    · have different : rcvr ≠ other := fun equal => same equal.symm
      simp [packetOf?, same, different]
  · intro other member
    by_cases same : other = rcvr
    · simp [same]
    · rw [List.mem_append, List.mem_singleton] at member
      have earlier : other ∈ filled := member.resolve_right same
      simpa [Function.update_of_ne same] using
        openRound.waits other earlier
  · obtain ⟨testing, counter, payload⟩ :=
      openRound.sender.resolve_right (fun full => free full.1)
    refine .inl ⟨testing, counter, ?_⟩
    show loadPayload rcvr packet link.payload = _
    have others :
        ∀ other ∈ filled,
          link.frames.length < (packetsOf other actions).length := by
      intro other member
      rw [openRound.written other, if_pos member]
      exact Nat.lt_succ_self _
    rw [List.foldl_append, List.foldl_cons, List.foldl_nil,
      foldl_loadRound_concat loadPayload others, payload]
    simp only [loadRound, packetsOf_concat, packetOf?, if_true,
      Option.toList_some, lastFrame]
    rw [← ownLength, List.getElem?_concat_length]

/-- `load_packet` under `done_send_lock`: a receiver of an earlier round returns. -/
theorem leave
    (openRound :
      OpenRound loadPayload plugSequence start actions filled link)
    {rcvr : Fin count}
    (taken :
      FrameLink.step (activeChannel count loadPayload plugSequence) link
        (.leave rcvr) = some next) :
    next.frames = link.frames ∧
      OpenRound loadPayload plugSequence start
        (actions ++ [.leave rcvr]) filled next := by
  obtain ⟨_, _, clear, rfl⟩ := FrameLink.step_leave_iff.mp taken
  have fresh : rcvr ∉ filled := openRound.not_filled_of_clear clear
  have silent :
      ∀ other,
        packetOf? other
          (.leave rcvr : FrameAction (Fin count) Packet) = none :=
    fun _ => rfl
  refine ⟨rfl, ⟨openRound.nodup, openRound.flags, ?_, ?_, ?_⟩⟩
  · intro other
    rw [packetsOf_concat_of_none silent]
    exact openRound.written other
  · intro other member
    have different : other ≠ rcvr := fun same => fresh (same ▸ member)
    simpa [Function.update_of_ne different] using
      openRound.waits other member
  · simpa only [lastFrame, foldl_loadRound_concat_of_none silent] using
      openRound.sender

/-- `handler_ep6` sees complete flags: everybody has filled its part. -/
theorem test
    (openRound :
      OpenRound loadPayload plugSequence start actions filled link)
    (taken :
      FrameLink.step (activeChannel count loadPayload plugSequence) link
        .test = some next) :
    next.frames = link.frames ∧
      OpenRound loadPayload plugSequence start
        (actions ++ [.test]) filled next := by
  obtain ⟨testing, complete, rfl⟩ := FrameLink.step_test_iff.mp taken
  have full : ∀ rcvr, rcvr ∈ filled :=
    openRound.filled_of_complete complete
  have notHolding : link.ep6Pc ≠ .holding := by
    rw [testing]
    decide
  obtain ⟨_, counter, payload⟩ :=
    openRound.sender.resolve_right (fun held => notHolding held.1)
  refine ⟨rfl, ⟨openRound.nodup, openRound.flags, ?_,
    openRound.waits, .inr ⟨rfl, full, ?_, ?_⟩⟩⟩
  · intro other
    rw [packetsOf_concat_of_none (fun _ => rfl)]
    exact openRound.written other
  · show link.counter + 1 = _
    rw [counter, UInt32.ofNat_add]
    rfl
  · show plugSequence link.counter link.payload = _
    rw [foldl_loadRound_concat_of_none (fun _ => rfl), counter, payload]
    rfl

/-- `sendto` under both locks: the frame of the round is out. -/
theorem send
    (openRound :
      OpenRound loadPayload plugSequence start actions filled link)
    (taken :
      FrameLink.step (activeChannel count loadPayload plugSequence) link
        .send = some next) :
    next.frames = link.frames ++ [link.payload] ∧
      FrameHoldsRound loadPayload plugSequence actions
        (lastFrame start link) link.payload link.frames.length ∧
      SentRound start (actions ++ [.send]) next := by
  obtain ⟨holding, rfl⟩ := FrameLink.step_send_iff.mp taken
  have notTesting : link.ep6Pc ≠ .testing := by
    rw [holding]
    decide
  obtain ⟨_, full, counter, payload⟩ :=
    openRound.sender.resolve_left (fun open_ => notTesting open_.1)
  refine ⟨rfl, ?_, ⟨rfl, ?_, ?_, ?_, ?_⟩⟩
  · rw [payload]
    exact openRound.holdsRound full
  · intro other
    rw [packetsOf_concat_of_none (fun _ => rfl), openRound.written other,
      if_pos (full other), List.length_append, List.length_singleton]
  · intro other
    exact openRound.waits other (full other)
  · show link.counter = _
    rw [counter, List.length_append, List.length_singleton]
  · simp [lastFrame]

end OpenRound

namespace SentRound

/-- While the frame is out and the flags are up, no receiver can write. -/
theorem not_outside
    (sentRound : SentRound start actions link)
    {rcvr : Fin count} :
    link.loadPc rcvr ≠ .outside := by
  rw [sentRound.waits rcvr]
  decide

/-- `send_flags = 0`: the next round is open and nobody has filled its part. -/
theorem clear
    (sentRound : SentRound start actions link)
    (taken :
      FrameLink.step (activeChannel count loadPayload plugSequence) link
        .clear = some next) :
    next.frames = link.frames ∧
      OpenRound loadPayload plugSequence start
        (actions ++ [.clear]) [] next := by
  obtain ⟨_, rfl⟩ := FrameLink.step_clear_iff.mp taken
  refine ⟨rfl, ⟨List.nodup_nil, rfl, ?_, ?_,
    .inl ⟨rfl, sentRound.counter, sentRound.payload⟩⟩⟩
  · intro other
    rw [packetsOf_concat_of_none (fun _ => rfl), sentRound.written other]
    rfl
  · intro other member
    exact absurd member List.not_mem_nil

end SentRound

namespace HandshakeInvariant

/-- Before the first step a round is open and nobody has filled its part. -/
theorem initial :
    HandshakeInvariant loadPayload plugSequence start []
      (FrameLink.initial start) where
  frames := by
    intro round frame sentFrame
    simp [FrameLink.initial] at sentFrame
  round :=
    .inl ⟨[], List.nodup_nil, rfl, fun _ => rfl,
      fun _ member => absurd member List.not_mem_nil,
      .inl ⟨rfl, rfl, rfl⟩⟩

/-- Every step of every thread keeps the invariant. -/
theorem step
    {action : FrameAction (Fin count) Packet}
    (invariant :
      HandshakeInvariant loadPayload plugSequence start actions link)
    (taken :
      FrameLink.step (activeChannel count loadPayload plugSequence) link
        action = some next) :
    HandshakeInvariant loadPayload plugSequence start
      (actions ++ [action]) next := by
  have kept :=
    FramesHold.concat invariant.frames action
  obtain ⟨filled, openRound⟩ | sentRound := invariant.round
  · cases action with
    | load rcvr packet =>
        obtain ⟨sameFrames, nextRound⟩ := openRound.load taken
        exact ⟨sameFrames ▸ kept, .inl ⟨_, nextRound⟩⟩
    | leave rcvr =>
        obtain ⟨sameFrames, nextRound⟩ := openRound.leave taken
        exact ⟨sameFrames ▸ kept, .inl ⟨_, nextRound⟩⟩
    | test =>
        obtain ⟨sameFrames, nextRound⟩ := openRound.test taken
        exact ⟨sameFrames ▸ kept, .inl ⟨_, nextRound⟩⟩
    | send =>
        obtain ⟨oneMore, holdsRound, sentRound⟩ := openRound.send taken
        refine ⟨?_, .inr sentRound⟩
        rw [oneMore]
        exact kept.extend
          (holdsRound.concat loadPayload plugSequence .send)
    | clear =>
        have sent := (FrameLink.step_clear_iff.mp taken).1
        rcases openRound.sender with testing | holding
        · rw [testing.1] at sent
          exact absurd sent (by decide)
        · rw [holding.1] at sent
          exact absurd sent (by decide)
  · have sent := sentRound.sender
    cases action with
    | load rcvr packet =>
        exact absurd (FrameLink.step_load_iff.mp taken).1
          sentRound.not_outside
    | leave rcvr =>
        exact absurd sent (FrameLink.step_leave_iff.mp taken).2.1
    | test =>
        rw [(FrameLink.step_test_iff.mp taken).1] at sent
        exact absurd sent (by decide)
    | send =>
        rw [(FrameLink.step_send_iff.mp taken).1] at sent
        exact absurd sent (by decide)
    | clear =>
        obtain ⟨sameFrames, nextRound⟩ := sentRound.clear taken
        exact ⟨sameFrames ▸ kept, .inl ⟨_, nextRound⟩⟩

/-- Every run of the handshake keeps the invariant. -/
theorem run
    (reached :
      PartialRun.run
        (FrameLink.step (activeChannel count loadPayload plugSequence))
        (FrameLink.initial start) actions = some link) :
    HandshakeInvariant loadPayload plugSequence start actions link :=
  PartialRun.invariant_history
    (HandshakeInvariant loadPayload plugSequence start)
    initial step reached

/-- A receiver is at most one packet ahead of the frames that are out. -/
theorem written_le
    (invariant :
      HandshakeInvariant loadPayload plugSequence start actions link)
    (rcvr : Fin count) :
    link.frames.length ≤ (packetsOf rcvr actions).length ∧
      (packetsOf rcvr actions).length ≤ link.frames.length + 1 := by
  obtain ⟨filled, openRound⟩ | sentRound := invariant.round
  · rw [openRound.written rcvr]
    split_ifs <;> omega
  · rw [sentRound.written rcvr]
    omega

/-- A receiver writes only when all its earlier packets are out. -/
theorem written_of_load
    (invariant :
      HandshakeInvariant loadPayload plugSequence start actions link)
    {rcvr : Fin count}
    {packet : Packet}
    (taken :
      FrameLink.step (activeChannel count loadPayload plugSequence) link
        (.load rcvr packet) = some next) :
    (packetsOf rcvr actions).length = link.frames.length := by
  have outside := (FrameLink.step_load_iff.mp taken).1
  obtain ⟨filled, openRound⟩ | sentRound := invariant.round
  · rw [openRound.written rcvr,
      if_neg (openRound.not_filled_of_outside outside), Nat.add_zero]
  · exact absurd outside sentRound.not_outside

/-- A frame is sent only when every receiver has a packet in it. -/
theorem written_of_send
    (invariant :
      HandshakeInvariant loadPayload plugSequence start actions link)
    (taken :
      FrameLink.step (activeChannel count loadPayload plugSequence) link
        .send = some next)
    (rcvr : Fin count) :
    (packetsOf rcvr actions).length = link.frames.length + 1 := by
  have holding := (FrameLink.step_send_iff.mp taken).1
  obtain ⟨filled, openRound⟩ | sentRound := invariant.round
  · rcases openRound.sender with testing | full
    · rw [testing.1] at holding
      exact absurd holding (by decide)
    · rw [openRound.written rcvr, if_pos (full.2.1 rcvr)]
  · rw [sentRound.sender] at holding
    exact absurd holding (by decide)

end HandshakeInvariant

end Steps

/-! ## Parts of a frame -/

/--
Each receiver has a part of the payload that its own packets determine, and that
neither the packets of the others nor the sequence number change.
-/
structure KeepsParts
    {Part : Type}
    (part : Fin count → Payload → Part)
    (content : Fin count → Packet → Part) : Prop where
  own :
    ∀ rcvr packet payload,
      part rcvr (loadPayload rcvr packet payload) = content rcvr packet
  other :
    ∀ rcvr writer packet payload,
      writer ≠ rcvr →
      part rcvr (loadPayload writer packet payload) = part rcvr payload
  plug :
    ∀ rcvr counter payload,
      part rcvr (plugSequence counter payload) = part rcvr payload

section Parts

variable
  {loadPayload plugSequence}
  {Part : Type}
  {part : Fin count → Payload → Part}
  {content : Fin count → Packet → Part}
  {actions : List (FrameAction (Fin count) Packet)}
  {round : Nat}

/-- In a round in which every receiver writes, a part ends up with its packet. -/
theorem KeepsParts.foldl_loadRound
    (keepsParts : KeepsParts loadPayload plugSequence part content)
    {rcvr : Fin count}
    {packet : Packet}
    (written : (packetsOf rcvr actions)[round]? = some packet)
    {order : List (Fin count)}
    (member : rcvr ∈ order)
    (payload : Payload) :
    part rcvr
        (order.foldl (loadRound loadPayload actions round) payload) =
      content rcvr packet := by
  refine OverlayWrites.foldl_observe_of_owner (part rcvr) member ?_ ?_
    payload
  · intro current
    rw [loadRound, written]
    exact keepsParts.own rcvr packet current
  · intro writer _ isOther current
    rw [loadRound]
    split
    · rfl
    · exact keepsParts.other rcvr writer _ current isOther

/-- The part of a receiver in a frame is its packet of the frame's round. -/
theorem FrameHoldsRound.part_eq
    {previous frame : Payload}
    (holds :
      FrameHoldsRound loadPayload plugSequence actions previous frame round)
    (keepsParts : KeepsParts loadPayload plugSequence part content)
    (rcvr : Fin count) :
    ∃ packet,
      (packetsOf rcvr actions)[round]? = some packet ∧
        part rcvr frame = content rcvr packet := by
  obtain ⟨written, order, everyRcvr, frameIs⟩ := holds
  have found := List.getElem?_eq_getElem (written rcvr)
  refine ⟨_, found, ?_⟩
  rw [frameIs, keepsParts.plug]
  exact keepsParts.foldl_loadRound found
    (everyRcvr.mem_iff.mpr (List.mem_finRange rcvr)) previous

end Parts

/--
In every run, whatever the threads write and however they interleave: frame
number `k` holds exactly one packet of every receiver, the one of its call
number `k`, and shows it in the part that is the receiver's own; a receiver is
never more than one packet ahead; it writes only when all its packets are out;
and a frame goes out only with a packet of everybody.
-/
theorem frames_hold_every_packet
    {actions : List (FrameAction (Fin count) Packet)}
    {link : FrameLink (Fin count) Payload}
    (reached :
      PartialRun.run
        (FrameLink.step (activeChannel count loadPayload plugSequence))
        (FrameLink.initial start) actions = some link) :
    FramesHold loadPayload plugSequence start actions link.frames ∧
      (∀ (Part : Type) (part : Fin count → Payload → Part)
          (content : Fin count → Packet → Part),
        KeepsParts loadPayload plugSequence part content →
          ∀ (round : Nat) (frame : Payload),
            link.frames[round]? = some frame →
            ∀ rcvr, ∃ packet,
              (packetsOf rcvr actions)[round]? = some packet ∧
                part rcvr frame = content rcvr packet) ∧
      (∀ rcvr,
        link.frames.length ≤ (packetsOf rcvr actions).length ∧
          (packetsOf rcvr actions).length ≤ link.frames.length + 1) ∧
      (∀ rcvr packet next,
        FrameLink.step (activeChannel count loadPayload plugSequence) link
            (.load rcvr packet) = some next →
          (packetsOf rcvr actions).length = link.frames.length) ∧
      ∀ next,
        FrameLink.step (activeChannel count loadPayload plugSequence) link
            .send = some next →
          ∀ rcvr,
            (packetsOf rcvr actions).length = link.frames.length + 1 := by
  have invariant := HandshakeInvariant.run reached
  refine ⟨invariant.frames, ?_, invariant.written_le, ?_, ?_⟩
  · intro Part part content keepsParts round frame isSent rcvr
    exact (invariant.frames round frame isSent).part_eq keepsParts rcvr
  · intro rcvr packet next taken
    exact invariant.written_of_load taken
  · intro next taken
    exact invariant.written_of_send taken

/--
Two rounds of two receivers: receiver 0 is back with its second packet before
receiver 1 has seen that the first frame is out.
-/
def fastReceiverRounds : List (FrameAction (Fin 2) Nat) :=
  [.load 1 10, .load 0 20, .test, .send, .clear, .leave 0, .load 0 21,
    .leave 1, .load 1 11, .test, .send]

theorem frames_hold_every_packet_fast_receiver :
    ∃ link,
      PartialRun.run
          (FrameLink.step
            (activeChannel 2
              (fun rcvr packet payload =>
                Function.update payload rcvr packet)
              (fun _ payload => payload)))
          (FrameLink.initial (fun _ => 0)) fastReceiverRounds =
        some link ∧
      link.frames.length = 2 ∧
      FramesHold
        (fun rcvr packet payload => Function.update payload rcvr packet)
        (fun _ payload => payload) (fun _ => 0) fastReceiverRounds
        link.frames ∧
      ∀ (round : Nat) (frame : Fin 2 → Nat),
        link.frames[round]? = some frame →
        ∀ rcvr, ∃ packet,
          (packetsOf rcvr fastReceiverRounds)[round]? = some packet ∧
            frame rcvr = packet := by
  refine ⟨_, rfl, rfl, (frames_hold_every_packet _ _ _ rfl).1, ?_⟩
  have ownCell :
      KeepsParts
        (fun (rcvr : Fin 2) (packet : Nat) (payload : Fin 2 → Nat) =>
          Function.update payload rcvr packet)
        (fun _ payload => payload)
        (fun rcvr payload => payload rcvr) (fun _ packet => packet) := {
    own := fun rcvr packet payload => Function.update_self rcvr packet payload
    other := fun rcvr writer packet payload isOther =>
      Function.update_of_ne (Ne.symm isOther) packet payload
    plug := fun _ _ _ => rfl }
  exact (frames_hold_every_packet _ _ (fun _ => 0) rfl).2.1
    Nat _ _ ownCell

end Rounds

end LibRtlSdr.Hpsdr
