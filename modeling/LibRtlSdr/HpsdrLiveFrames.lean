import LibRtlSdr.HpsdrFrameSystem

namespace LibRtlSdr.Hpsdr

/-!
# What the PC decodes

The handshake and the layout together: in a run of the threads under one
configuration, each value of a frame is the sample that its receiver brought in
the call of that round.
-/

section Decode

variable
  {Sample : Type}
  {state : Ep2State}
  {total : RcvrTotal}
  {request : ConfigRequest}

/-- The threads and the handler mean the same bits. -/
theorem Installed.activeChannel_masks
    {Packet Payload : Type}
    (installed : Installed total request state)
    (loadPayload :
      Fin state.activeNumRcvrs → Packet → Payload → Payload)
    (plug : UInt32 → Payload → Payload) :
    let channel :=
      activeChannel state.activeNumRcvrs loadPayload plug
    channel.rcvrsMask = state.rcvrsMask ∧
      ∀ rcvr, channel.rcvrMask rcvr = state.rcvrMask rcvr := by
  constructor
  · show FlagWord.wordOf _ = _
    rw [FlagWord.wordOf_range, installed.mask]
  · intro rcvr
    exact (installed.enabled rcvr rcvr.isLt).symm

variable
  (state)
  (cast : SampleCast Sample)

/-- What an active receiver does to the payload in live mode. -/
def liveLoad
    (rcvr : Fin state.activeNumRcvrs)
    (buffer : IqBuffer Sample)
    (payload : Payload) :
    Payload :=
  (loadPacket cast false state rcvr buffer payload).payload

/-- The place of a value in a frame: time slot, channel, and I or Q. -/
structure ValuePlace where
  slot : Nat
  channel : Nat
  component : Nat

/-- The places that exist in the layout in force. -/
def ValuePlace.InFrame (place : ValuePlace) : Prop :=
  place.slot < 2 * slotsPerBank (frameRcvrs state) ∧
    place.channel < frameRcvrs state ∧ place.component < 2

variable {state cast}

/-- A value of the layout is the part of the receiver that owns its channel. -/
theorem Installed.keepsParts_value
    (installed : Installed total request state)
    {place : ValuePlace}
    (inFrame : place.InFrame state) :
    KeepsParts (liveLoad state cast) plugSequence
      (fun rcvr payload =>
        if columnOwner state place.channel = rcvr then
          some (decodeValue (frameRcvrs state) payload place.slot
            place.channel place.component)
        else
          none)
      (fun rcvr buffer =>
        if columnOwner state place.channel = rcvr then
          some (cast.toShort
            (buffer.outBuf (2 * place.slot + place.component)))
        else
          none) where
  own := by
    intro rcvr buffer payload
    split_ifs with owner
    · exact congrArg some
        (installed.decodeValue_own rcvr.isLt inFrame.1 inFrame.2.1
          inFrame.2.2 owner payload)
    · rfl
  other := by
    intro rcvr writer buffer payload different
    split_ifs with owner
    · have notOwner : (writer : Nat) ≠ columnOwner state place.channel := by
        rw [owner]
        exact fun same => different (Fin.ext same)
      have real : (writer : Nat) < total.count :=
        Nat.lt_of_lt_of_le writer.isLt installed.active_le_total
      exact congrArg some
        (installed.decodeValue_other real inFrame.1 inFrame.2.1
          inFrame.2.2 notOwner payload)
    · rfl
  plug := by
    intro rcvr counter payload
    have start : 16 ≤ slotStart (frameRcvrs state) place.slot := by
      unfold slotStart
      split_ifs <;> omega
    split_ifs with owner
    · simp only [decodeValue]
      rw [plugSequence_of_le (by omega), plugSequence_of_le (by omega)]
    · rfl

/--
In every run of the threads under one configuration, whatever the order of their
steps: channel `c` of frame number `k` decodes to the samples of the call number
`k` of receiver `min c (active - 1)`.
-/
theorem Installed.run_frames_decode
    (installed : Installed total request state)
    {start : Payload}
    {actions :
      List (FrameAction (Fin state.activeNumRcvrs) (IqBuffer Sample))}
    {link : FrameLink (Fin state.activeNumRcvrs) Payload}
    (reached :
      PartialRun.run
        (FrameLink.step
          (activeChannel state.activeNumRcvrs (liveLoad state cast)
            plugSequence))
        (FrameLink.initial start) actions = some link)
    {round : Nat}
    {frame : Payload}
    (sentFrame : link.frames[round]? = some frame)
    {place : ValuePlace}
    (inFrame : place.InFrame state)
    {rcvr : Fin state.activeNumRcvrs}
    (owner : columnOwner state place.channel = rcvr) :
    ∃ buffer,
      (packetsOf rcvr actions)[round]? = some buffer ∧
        decodeValue (frameRcvrs state) frame place.slot place.channel
            place.component =
          cast.toShort
            (buffer.outBuf (2 * place.slot + place.component)) := by
  have holds :=
    (HandshakeInvariant.run reached).frames round frame sentFrame
  obtain ⟨buffer, written, value⟩ :=
    holds.part_eq (installed.keepsParts_value inFrame) rcvr
  rw [if_pos owner, if_pos owner, Option.some.injEq] at value
  exact ⟨buffer, written, value⟩

end Decode

end LibRtlSdr.Hpsdr
