import LibRtlSdr.BoundedBuffer
import LibRtlSdr.ConsecutivePairs
import LibRtlSdr.HpsdrProcessEp2

namespace LibRtlSdr.Hpsdr

open BoundedBuffer (blit window blit_of_outside window_blit_self)
open ConsecutivePairs (pairs pairs_append)
open PartialRun (run)

/-!
# The datagrams of `rtl_hpsdr`

The loop of `main` receives every datagram into the same `buffer`.  What is shorter than
the datagram before leaves the rest of that in place; only the first four bytes are set
anew, to a code that is none of the protocol's.  Then the code and the length decide:
`process_ep2` is called, a discovery is answered in that same buffer, the sender thread is
stopped or started, or the datagram is thrown away.

Over the loop stands the protocol without any buffer, in which each datagram is taken for
itself.  The loop is shown to be that protocol.
-/

/-! ## Source -/

/-- `id`, which is put in front before each `recvfrom`. -/
def idBytes : List UInt8 :=
  [0xef, 0xfe, 1, 6]

/-- `*code0`: the first four bytes, the lowest first. -/
def codeOf (buffer : Ep2Buffer) : Nat :=
  (buffer 0).toNat + 2 ^ 8 * (buffer 1).toNat + 2 ^ 16 * (buffer 2).toNat +
    2 ^ 24 * (buffer 3).toNat

/-- The `seqnum` of an EP2 datagram. -/
def seqnumOf (buffer : Ep2Buffer) : UInt32 :=
  UInt32.ofNat
    (2 ^ 24 * (buffer 4).toNat + 2 ^ 16 * (buffer 5).toNat + 2 ^ 8 * (buffer 6).toNat +
      (buffer 7).toNat)

/-- `new_protocol_running`. -/
def newProtocolRunning : Nat := 0

/-- `HERMES_FW_VER`. -/
def hermesFwVer : UInt8 := 32

/-- `OLDDEVICE`, which is `ODEV_ORION`. -/
def oldDevice : UInt8 := 5

/-- The assignments of the answer to a discovery, in their order: index and value. -/
def discoveryBytes : List (Nat × UInt8) :=
  [(0, 0xEF), (1, 0xFE), (2, 0x02), (3, 0x00), (4, 0x1C), (5, 0xC0), (6, 0xA2), (7, 0x10),
    (8, 0xDD), (2, 2)] ++
    (if newProtocolRunning ≠ 0 then [(2, 3)] else []) ++
    [(9, hermesFwVer), (10, oldDevice)]

/-- The buffer with the answer to a discovery. -/
def answerDiscovery (buffer : Ep2Buffer) : Ep2Buffer :=
  discoveryBytes.foldl (fun bytes entry => Function.update bytes entry.1 entry.2)
    (blit 0 (List.replicate 60 0) buffer)

/-- What the loop of `main` keeps between datagrams. -/
structure Receiver where
  buffer : Ep2Buffer
  lastSeqnum : UInt32
  ep2 : Ep2State

/-- What else an iteration does, and what it prints. -/
inductive Outcome (Address : Type) where
  /-- Nothing has been received. -/
  | nothing
  | invalidLength (code : Nat) (bytesRead : Nat)
  /-- `process_ep2`, behind the last number and the received one, if they do not fit. -/
  | processed (seqError : Option (UInt32 × UInt32))
  | answered (client : Address) (answer : List UInt8)
  | stop
  | start (client : Address)
  | alreadyRunning
  | discoveryIgnored (client : Address)
  | generalIgnored
  /-- The length, and the bytes that are printed. -/
  | invalid (bytesRead : Nat) (printed : List UInt8)

variable {Address : Type}

/--
The `switch` over the code, and the default case behind it.  `oldnew` is 1 throughout: the
new protocol's datagrams are ignored.  There is no result where `process_ep2` exits.
-/
def dispatch
    (total : RcvrTotal)
    (client : Address)
    (bytesRead : Nat)
    (s : Receiver) :
    Option (Receiver × Outcome Address) :=
  let code := codeOf s.buffer
  if code = 0x0201feef then
    if bytesRead ≠ hpsdrFrameLen then
      some (s, .invalidLength code bytesRead)
    else
      let seqnum := seqnumOf s.buffer
      let seqError :=
        if seqnum ≠ s.lastSeqnum + 1 then some (s.lastSeqnum, seqnum) else none
      (processEp2 total s.ep2 s.buffer).map fun ep2 =>
        ({ s with lastSeqnum := seqnum, ep2 := ep2 }, .processed seqError)
  else if code = 0x0002feef then
    if bytesRead ≠ 63 then
      some (s, .invalidLength code bytesRead)
    else
      let buffer := answerDiscovery s.buffer
      some ({ s with buffer := buffer }, .answered client (window buffer 0 60))
  else if code = 0x0004feef then
    if bytesRead ≠ 64 then
      some (s, .invalidLength code bytesRead)
    else
      some (s, .stop)
  else if code = 0x0104feef ∨ code = 0x0204feef ∨ code = 0x0304feef then
    if newProtocolRunning ≠ 0 then
      some (s, .alreadyRunning)
    else if bytesRead ≠ 64 then
      some (s, .invalidLength code bytesRead)
    else
      some (s, .start client)
  else if code = 0 ∧ s.buffer 4 = 0x02 then
    some (s, .discoveryIgnored client)
  else if bytesRead = 60 ∧ s.buffer 4 = 0x00 then
    some (s, .generalIgnored)
  else
    some (s, .invalid bytesRead (window s.buffer 0 16))

/-- The receive buffer once a datagram has come in. -/
def receivedInto
    (buffer : Ep2Buffer)
    (bytes : List UInt8) :
    Ep2Buffer :=
  blit 0 bytes (blit 0 idBytes buffer)

/--
One iteration: `recvfrom` brings nothing, or a datagram, of which it stores at most a frame.
-/
def receive
    (total : RcvrTotal)
    (s : Receiver) :
    Option (Address × List UInt8) → Option (Receiver × Outcome Address)
  | none =>
      some ({ s with buffer := blit 0 idBytes s.buffer }, .nothing)
  | some (client, datagram) =>
      let bytes := datagram.take hpsdrFrameLen
      if bytes.length ≤ 0 then
        some ({ s with buffer := blit 0 idBytes s.buffer }, .nothing)
      else
        dispatch total client bytes.length
          { s with buffer := receivedInto s.buffer bytes }

/-- The loop with all that it has done. -/
structure Loop (Address : Type) where
  receiver : Receiver
  outcomes : List (Outcome Address)

/-- An iteration of the loop. -/
def Loop.step
    (total : RcvrTotal)
    (loop : Loop Address)
    (received : Option (Address × List UInt8)) :
    Option (Loop Address) :=
  (receive total loop.receiver received).map fun next =>
    ⟨next.1, loop.outcomes ++ [next.2]⟩

/-- Before the first iteration. -/
def Loop.start : Loop Address :=
  { receiver := { buffer := fun _ => 0, lastSeqnum := 0xffffffff, ep2 := .initial }
    outcomes := [] }

/-! ## The protocol -/

/-- What a client asks for. -/
inductive Request where
  | ep2 (frame : Ep2Buffer)
  | discovery
  | stop
  | start

/-- A datagram by itself, as a memory. -/
def frameOf (datagram : List UInt8) : Ep2Buffer :=
  fun i => datagram.getD i 0

/-- What a datagram asks for, whatever has been received before. -/
def requestOf (datagram : List UInt8) : Option Request :=
  match datagram with
  | 0xef :: 0xfe :: 0x01 :: 0x02 :: _ =>
      if hpsdrFrameLen ≤ datagram.length then some (.ep2 (frameOf datagram)) else none
  | 0xef :: 0xfe :: 0x02 :: 0x00 :: _ =>
      if datagram.length = 63 then some .discovery else none
  | 0xef :: 0xfe :: 0x04 :: way :: _ =>
      if datagram.length = 64 then
        if way = 0 then some .stop else if way ≤ 3 then some .start else none
      else
        none
  | _ =>
      none

/-- What a request has made the station do. -/
inductive Effect (Address : Type) where
  | processed (seqError : Option (UInt32 × UInt32))
  | answered (client : Address) (answer : List UInt8)
  | stop
  | start (client : Address)

/-- The answer to a discovery. -/
def discoveryAnswer : List UInt8 :=
  [0xEF, 0xFE, 0x02, 0x00, 0x1C, 0xC0, 0xA2, 0x10, 0xDD, hermesFwVer, oldDevice] ++
    List.replicate 49 0

/-- The station as its clients see it: no buffer. -/
structure Station (Address : Type) where
  lastSeqnum : UInt32
  ep2 : Ep2State
  effects : List (Effect Address)

namespace Station

/-- A request is served. -/
def serve
    (total : RcvrTotal)
    (client : Address)
    (s : Station Address) :
    Request → Option (Station Address)
  | .ep2 frame =>
      let seqnum := seqnumOf frame
      (processEp2 total s.ep2 frame).map fun ep2 =>
        { lastSeqnum := seqnum
          ep2 := ep2
          effects :=
            s.effects ++
              [.processed
                (if seqnum = s.lastSeqnum + 1 then none else some (s.lastSeqnum, seqnum))] }
  | .discovery =>
      some { s with effects := s.effects ++ [.answered client discoveryAnswer] }
  | .stop =>
      some { s with effects := s.effects ++ [.stop] }
  | .start =>
      some { s with effects := s.effects ++ [.start client] }

/-- A datagram is served if it asks for something. -/
def step
    (total : RcvrTotal)
    (s : Station Address)
    (received : Option (Address × List UInt8)) :
    Option (Station Address) :=
  match received with
  | none =>
      some s
  | some (client, datagram) =>
      match requestOf datagram with
      | none => some s
      | some request => s.serve total client request

end Station

/-- What an outcome is for the clients. -/
def Outcome.effect? : Outcome Address → Option (Effect Address)
  | .processed seqError => some (.processed seqError)
  | .answered client answer => some (.answered client answer)
  | .stop => some .stop
  | .start client => some (.start client)
  | _ => none

/-- The loop as the clients see it. -/
def Loop.station (loop : Loop Address) : Station Address :=
  { lastSeqnum := loop.receiver.lastSeqnum
    ep2 := loop.receiver.ep2
    effects := loop.outcomes.filterMap Outcome.effect? }


/-! ## What is received -/

theorem receivedInto_of_lt
    {bytes : List UInt8}
    {i : Nat}
    (inside : i < bytes.length)
    (buffer : Ep2Buffer) :
    receivedInto buffer bytes i = bytes.getD i 0 := by
  unfold receivedInto blit
  rw [if_pos (Nat.zero_le i), Nat.sub_zero, List.getElem?_eq_getElem inside,
    List.getD_eq_getElem _ _ inside]
  rfl

/-- Behind a short datagram the prefix is still there. -/
theorem receivedInto_three
    {bytes : List UInt8}
    (short : bytes.length ≤ 3)
    (buffer : Ep2Buffer) :
    receivedInto buffer bytes 3 = 6 := by
  unfold receivedInto
  rw [blit_of_outside (.inr (by omega))]
  rfl

/-- So the code of a short datagram is none of the protocol's. -/
theorem le_codeOf_of_short
    {bytes : List UInt8}
    (short : bytes.length ≤ 3)
    (buffer : Ep2Buffer) :
    6 * 2 ^ 24 ≤ codeOf (receivedInto buffer bytes) := by
  unfold codeOf
  rw [receivedInto_three short]
  have six : (6 : UInt8).toNat = 6 := rfl
  omega

/-- A frame of which as much was received as is read is the datagram itself. -/
theorem receivedInto_take
    {datagram : List UInt8}
    {i : Nat}
    (inside : i < datagram.length)
    (inFrame : i < hpsdrFrameLen)
    (buffer : Ep2Buffer) :
    receivedInto buffer (datagram.take hpsdrFrameLen) i = frameOf datagram i := by
  have inTaken : i < (datagram.take hpsdrFrameLen).length := by
    rw [List.length_take]
    omega
  rw [receivedInto_of_lt inTaken]
  unfold frameOf
  rw [List.getD_eq_getElem _ _ inTaken, List.getD_eq_getElem _ _ inside, List.getElem_take]

theorem codeOf_congr
    {first second : Ep2Buffer}
    (same : ∀ i, i < 4 → first i = second i) :
    codeOf first = codeOf second := by
  unfold codeOf
  rw [same 0 (by omega), same 1 (by omega), same 2 (by omega), same 3 (by omega)]

theorem seqnumOf_congr
    {first second : Ep2Buffer}
    (same : ∀ i, i < hpsdrFrameLen → first i = second i) :
    seqnumOf first = seqnumOf second := by
  unfold seqnumOf
  rw [same 4 (by decide), same 5 (by decide), same 6 (by decide), same 7 (by decide)]

/-- `process_ep2` reads within one frame. -/
theorem processEp2_congr
    {first second : Ep2Buffer}
    (same : ∀ i, i < hpsdrFrameLen → first i = second i)
    (total : RcvrTotal)
    (state : Ep2State) :
    processEp2 total state first = processEp2 total state second := by
  have control : ∀ offset, offset ≤ 512 →
      controlByte first offset = controlByte second offset := by
    intro offset inside
    unfold controlByte
    rw [same _ (by unfold hpsdrFrameLen; omega)]
  have request : ∀ offset, offset ≤ 512 →
      ConfigRequest.ofFrame first offset = ConfigRequest.ofFrame second offset := by
    intro offset inside
    unfold ConfigRequest.ofFrame
    congr 1 <;> rw [same _ (by unfold hpsdrFrameLen; omega)]
  have freq : ∀ offset, offset ≤ 512 → freqWord first offset = freqWord second offset := by
    intro offset inside
    unfold freqWord
    rw [same _ (by unfold hpsdrFrameLen; omega),
      same (13 + offset) (by unfold hpsdrFrameLen; omega),
      same (14 + offset) (by unfold hpsdrFrameLen; omega),
      same (15 + offset) (by unfold hpsdrFrameLen; omega)]
  have pass :
      ∀ c state,
        processEp2Pass total first c state = processEp2Pass total second c state := by
    intro c state
    have tuned : tunePass total first c state = tunePass total second c state := by
      unfold tunePass
      rw [control 0 (by omega), control 512 (by omega), freq 0 (by omega), freq 512 (by omega)]
    unfold processEp2Pass
    rw [tuned, control 0 (by omega), control 512 (by omega)]
    dsimp only
    rw [request _ (by split <;> omega)]
  unfold processEp2
  rw [pass]
  congr 1
  funext next
  exact pass 1 next

/-! ## What a datagram asks for -/

/-- A code is its four bytes. -/
theorem codeOf_eq_iff
    {b0 b1 b2 b3 c0 c1 c2 c3 : UInt8}
    {rest : List UInt8}
    {code : Nat}
    (isCode :
      c0.toNat + 2 ^ 8 * c1.toNat + 2 ^ 16 * c2.toNat + 2 ^ 24 * c3.toNat = code) :
    codeOf (frameOf (b0 :: b1 :: b2 :: b3 :: rest)) = code ↔
      b0 = c0 ∧ b1 = c1 ∧ b2 = c2 ∧ b3 = c3 := by
  have bytes :
      codeOf (frameOf (b0 :: b1 :: b2 :: b3 :: rest)) =
        b0.toNat + 2 ^ 8 * b1.toNat + 2 ^ 16 * b2.toNat + 2 ^ 24 * b3.toNat :=
    rfl
  rw [bytes, ← isCode]
  simp only [← UInt8.toNat_inj]
  have := b0.toNat_lt
  have := b1.toNat_lt
  have := b2.toNat_lt
  have := c0.toNat_lt
  have := c1.toNat_lt
  have := c2.toNat_lt
  omega

/-- The ways of a START, and the STOP. -/
theorem way_cases
    {way : UInt8}
    (low : way ≤ 3) :
    way = 0 ∨ way = 1 ∨ way = 2 ∨ way = 3 := by
  have low : way.toNat ≤ 3 := low
  simp only [← UInt8.toNat_inj]
  have zero : (0 : UInt8).toNat = 0 := rfl
  have one : (1 : UInt8).toNat = 1 := rfl
  have two : (2 : UInt8).toNat = 2 := rfl
  have three : (3 : UInt8).toNat = 3 := rfl
  omega

theorem requestOf_short
    {datagram : List UInt8}
    (short : datagram.length ≤ 3) :
    requestOf datagram = none := by
  unfold requestOf
  split
  · simp only [List.length_cons] at short
    omega
  · simp only [List.length_cons] at short
    omega
  · simp only [List.length_cons] at short
    omega
  · rfl

/-- The protocol reads the code as the loop does. -/
theorem requestOf_eq
    {datagram : List UInt8}
    (long : 4 ≤ datagram.length) :
    requestOf datagram =
      if codeOf (frameOf datagram) = 0x0201feef then
        if hpsdrFrameLen ≤ datagram.length then some (.ep2 (frameOf datagram)) else none
      else if codeOf (frameOf datagram) = 0x0002feef then
        if datagram.length = 63 then some .discovery else none
      else if codeOf (frameOf datagram) = 0x0004feef then
        if datagram.length = 64 then some .stop else none
      else if
        codeOf (frameOf datagram) = 0x0104feef ∨ codeOf (frameOf datagram) = 0x0204feef ∨
          codeOf (frameOf datagram) = 0x0304feef then
        if datagram.length = 64 then some .start else none
      else
        none := by
  rcases datagram with _ | ⟨b0, _ | ⟨b1, _ | ⟨b2, _ | ⟨b3, rest⟩⟩⟩⟩
  · simp at long
  · simp at long
  · simp at long
  · simp at long
  · have ep2 :
        codeOf (frameOf (b0 :: b1 :: b2 :: b3 :: rest)) = 0x0201feef ↔
          b0 = 0xef ∧ b1 = 0xfe ∧ b2 = 0x01 ∧ b3 = 0x02 := codeOf_eq_iff rfl
    have discovery :
        codeOf (frameOf (b0 :: b1 :: b2 :: b3 :: rest)) = 0x0002feef ↔
          b0 = 0xef ∧ b1 = 0xfe ∧ b2 = 0x02 ∧ b3 = 0x00 := codeOf_eq_iff rfl
    have stop :
        codeOf (frameOf (b0 :: b1 :: b2 :: b3 :: rest)) = 0x0004feef ↔
          b0 = 0xef ∧ b1 = 0xfe ∧ b2 = 0x04 ∧ b3 = 0x00 := codeOf_eq_iff rfl
    have first :
        codeOf (frameOf (b0 :: b1 :: b2 :: b3 :: rest)) = 0x0104feef ↔
          b0 = 0xef ∧ b1 = 0xfe ∧ b2 = 0x04 ∧ b3 = 0x01 := codeOf_eq_iff rfl
    have second :
        codeOf (frameOf (b0 :: b1 :: b2 :: b3 :: rest)) = 0x0204feef ↔
          b0 = 0xef ∧ b1 = 0xfe ∧ b2 = 0x04 ∧ b3 = 0x02 := codeOf_eq_iff rfl
    have third :
        codeOf (frameOf (b0 :: b1 :: b2 :: b3 :: rest)) = 0x0304feef ↔
          b0 = 0xef ∧ b1 = 0xfe ∧ b2 = 0x04 ∧ b3 = 0x03 := codeOf_eq_iff rfl
    unfold requestOf
    split
    case h_1 tail isList =>
      cases isList
      rw [if_pos (ep2.mpr ⟨rfl, rfl, rfl, rfl⟩)]
    case h_2 tail isList =>
      cases isList
      rw [discovery.mpr ⟨rfl, rfl, rfl, rfl⟩]
      rfl
    case h_3 tail isList =>
      cases isList
      by_cases low : b3 ≤ 3
      · rcases way_cases low with rfl | rfl | rfl | rfl
        · rw [stop.mpr ⟨rfl, rfl, rfl, rfl⟩]
          rfl
        · rw [first.mpr ⟨rfl, rfl, rfl, rfl⟩]
          rfl
        · rw [second.mpr ⟨rfl, rfl, rfl, rfl⟩]
          rfl
        · rw [third.mpr ⟨rfl, rfl, rfl, rfl⟩]
          rfl
      · have notZero : b3 ≠ 0 := by
          rintro rfl
          exact low (by decide)
        rw [if_neg notZero, if_neg low, ite_self, if_neg, if_neg, if_neg, if_neg]
        · rintro (code | code | code)
          · cases (first.mp code).2.2.2
            exact low (by decide)
          · cases (second.mp code).2.2.2
            exact low (by decide)
          · cases (third.mp code).2.2.2
            exact low (by decide)
        · intro code
          exact notZero (stop.mp code).2.2.2
        · intro code
          exact absurd (discovery.mp code).2.2.1 (by decide)
        · intro code
          exact absurd (ep2.mp code).2.2.1 (by decide)
    case h_4 notEp2 notDiscovery notStartStop =>
      rw [if_neg, if_neg, if_neg, if_neg]
      · rintro (code | code | code)
        · obtain ⟨rfl, rfl, rfl, rfl⟩ := first.mp code
          exact notStartStop _ _ rfl
        · obtain ⟨rfl, rfl, rfl, rfl⟩ := second.mp code
          exact notStartStop _ _ rfl
        · obtain ⟨rfl, rfl, rfl, rfl⟩ := third.mp code
          exact notStartStop _ _ rfl
      · intro code
        obtain ⟨rfl, rfl, rfl, rfl⟩ := stop.mp code
        exact notStartStop _ _ rfl
      · intro code
        obtain ⟨rfl, rfl, rfl, rfl⟩ := discovery.mp code
        exact notDiscovery _ rfl
      · intro code
        obtain ⟨rfl, rfl, rfl, rfl⟩ := ep2.mp code
        exact notEp2 _ rfl

/-! ## The answer to a discovery -/

/-- The assignments reach the buffer wherever it comes from. -/
theorem foldl_update_congr
    (entries : List (Nat × UInt8))
    {first second : Ep2Buffer}
    {i : Nat}
    (same : first i = second i) :
    entries.foldl (fun bytes entry => Function.update bytes entry.1 entry.2) first i =
      entries.foldl (fun bytes entry => Function.update bytes entry.1 entry.2) second i := by
  induction entries generalizing first second with
  | nil =>
      exact same
  | cons entry entries inductionHypothesis =>
      apply inductionHypothesis
      dsimp only
      by_cases here : i = entry.1
      · rw [here, Function.update_self, Function.update_self]
      · rw [Function.update_of_ne here, Function.update_of_ne here, same]

/-- Nothing of the buffer shows in the answer. -/
theorem window_answerDiscovery (buffer : Ep2Buffer) :
    window (answerDiscovery buffer) 0 60 = discoveryAnswer := by
  have cleared :
      window (answerDiscovery buffer) 0 60 = window (answerDiscovery fun _ => 0) 0 60 := by
    apply BoundedBuffer.window_congr
    intro i _ inside
    apply foldl_update_congr
    have inZeros : i < (List.replicate 60 (0 : UInt8)).length := by
      rw [List.length_replicate]
      omega
    have zero :
        ∀ memory : Ep2Buffer, blit 0 (List.replicate 60 0) memory i = 0 := by
      intro memory
      unfold blit
      rw [if_pos (Nat.zero_le i), Nat.sub_zero, List.getElem?_eq_getElem inZeros,
        Option.getD_some, List.getElem_replicate]
    rw [zero, zero]
  rw [cleared]
  decide +kernel

/-! ## The loop is the protocol -/

/-- The code that the loop reads is that of the datagram. -/
theorem codeOf_receivedInto
    {datagram : List UInt8}
    (long : 4 ≤ datagram.length)
    (buffer : Ep2Buffer) :
    codeOf (receivedInto buffer (datagram.take hpsdrFrameLen)) =
      codeOf (frameOf datagram) := by
  apply codeOf_congr
  intro i inside
  exact receivedInto_take (by omega) (by unfold hpsdrFrameLen; omega) buffer

/-- What an outcome adds for the clients. -/
def Station.after
    (effects : List (Effect Address))
    (next : Receiver × Outcome Address) :
    Station Address :=
  { lastSeqnum := next.1.lastSeqnum
    ep2 := next.1.ep2
    effects := effects ++ next.2.effect?.toList }

/-- A datagram that is shorter than a code is thrown away. -/
theorem dispatch_short
    {bytes : List UInt8}
    (short : bytes.length ≤ 3)
    (total : RcvrTotal)
    (client : Address)
    (s : Receiver) :
    ∃ printed,
      dispatch total client bytes.length { s with buffer := receivedInto s.buffer bytes } =
        some ({ s with buffer := receivedInto s.buffer bytes },
          .invalid bytes.length printed) := by
  have code := le_codeOf_of_short short s.buffer
  refine ⟨window (receivedInto s.buffer bytes) 0 16, ?_⟩
  unfold dispatch
  dsimp only
  rw [if_neg (by omega), if_neg (by omega), if_neg (by omega), if_neg (by omega),
    if_neg (by omega), if_neg (by omega)]

/-- The `switch` serves what the datagram asks for. -/
theorem dispatch_station
    {datagram : List UInt8}
    (long : 4 ≤ datagram.length)
    (total : RcvrTotal)
    (client : Address)
    (s : Receiver)
    (effects : List (Effect Address)) :
    (dispatch total client (datagram.take hpsdrFrameLen).length
        { s with buffer := receivedInto s.buffer (datagram.take hpsdrFrameLen) }).map
        (Station.after effects) =
      (match requestOf datagram with
        | none => some ⟨s.lastSeqnum, s.ep2, effects⟩
        | some request =>
          Station.serve total client ⟨s.lastSeqnum, s.ep2, effects⟩ request) := by
  have code := codeOf_receivedInto long s.buffer
  have length : (datagram.take hpsdrFrameLen).length = min hpsdrFrameLen datagram.length :=
    List.length_take
  have frameLen : hpsdrFrameLen = 1032 := rfl
  rw [requestOf_eq long]
  unfold dispatch
  dsimp only
  rw [code, length]
  by_cases ep2 : codeOf (frameOf datagram) = 0x0201feef
  · rw [if_pos ep2, if_pos ep2]
    by_cases whole : hpsdrFrameLen ≤ datagram.length
    · have same :
          ∀ i, i < hpsdrFrameLen →
            receivedInto s.buffer (datagram.take hpsdrFrameLen) i = frameOf datagram i :=
        fun i inFrame => receivedInto_take (by omega) inFrame s.buffer
      rw [if_neg (by omega), if_pos whole, processEp2_congr same, seqnumOf_congr same]
      dsimp only [Station.serve]
      rw [Option.map_map]
      congr 1
      funext next
      simp [Station.after, Outcome.effect?, ite_not]
    · rw [if_pos (by omega), if_neg whole]
      simp [Station.after, Outcome.effect?]
  · rw [if_neg ep2, if_neg ep2]
    by_cases discovery : codeOf (frameOf datagram) = 0x0002feef
    · rw [if_pos discovery, if_pos discovery]
      by_cases whole : datagram.length = 63
      · rw [if_neg (by omega), if_pos whole]
        simp [Station.after, Outcome.effect?, Station.serve, window_answerDiscovery]
      · rw [if_pos (by omega), if_neg whole]
        simp [Station.after, Outcome.effect?]
    · rw [if_neg discovery, if_neg discovery]
      by_cases stop : codeOf (frameOf datagram) = 0x0004feef
      · rw [if_pos stop, if_pos stop]
        by_cases whole : datagram.length = 64
        · rw [if_neg (by omega), if_pos whole]
          simp [Station.after, Outcome.effect?, Station.serve]
        · rw [if_pos (by omega), if_neg whole]
          simp [Station.after, Outcome.effect?]
      · rw [if_neg stop, if_neg stop]
        by_cases start :
          codeOf (frameOf datagram) = 0x0104feef ∨ codeOf (frameOf datagram) = 0x0204feef ∨
            codeOf (frameOf datagram) = 0x0304feef
        · rw [if_pos start, if_pos start, if_neg (by decide)]
          by_cases whole : datagram.length = 64
          · rw [if_neg (by omega), if_pos whole]
            simp [Station.after, Outcome.effect?, Station.serve]
          · rw [if_pos (by omega), if_neg whole]
            simp [Station.after, Outcome.effect?]
        · rw [if_neg start, if_neg start]
          -- the datagrams of the new protocol and the others have no effect
          split_ifs <;> simp [Station.after, Outcome.effect?]

theorem Loop.station_append
    (receiver : Receiver)
    (outcomes : List (Outcome Address))
    (outcome : Outcome Address) :
    Loop.station ⟨receiver, outcomes ++ [outcome]⟩ =
      Station.after (outcomes.filterMap Outcome.effect?) (receiver, outcome) := by
  unfold Loop.station Station.after
  rw [List.filterMap_append]
  rcases effect : outcome.effect? with _ | made <;> simp [effect]

/-- One iteration serves what the datagram asks for. -/
theorem Loop.step_station
    (total : RcvrTotal)
    (loop : Loop Address)
    (received : Option (Address × List UInt8)) :
    (loop.step total received).map Loop.station = loop.station.step total received := by
  have nothing :
      ∀ receiver : Receiver,
        receiver.lastSeqnum = loop.receiver.lastSeqnum →
          receiver.ep2 = loop.receiver.ep2 →
            ∀ outcome : Outcome Address,
              outcome.effect? = none →
                Loop.station ⟨receiver, loop.outcomes ++ [outcome]⟩ = loop.station := by
    intro receiver sameSeqnum sameEp2 outcome noEffect
    rw [Loop.station_append]
    simp [Station.after, Loop.station, sameSeqnum, sameEp2, noEffect]
  rcases received with _ | ⟨client, datagram⟩
  · exact congrArg some (nothing _ rfl rfl _ rfl)
  · unfold Loop.step receive Station.step
    dsimp only
    by_cases empty : datagram = []
    · subst empty
      exact congrArg some (nothing _ rfl rfl _ rfl)
    · have some_ := List.length_pos_iff.mpr empty
      have length :
          (datagram.take hpsdrFrameLen).length = min hpsdrFrameLen datagram.length :=
        List.length_take
      have frameLen : hpsdrFrameLen = 1032 := rfl
      rw [if_neg (by omega)]
      by_cases long : 4 ≤ datagram.length
      · have served :=
          dispatch_station long total client loop.receiver
            (loop.outcomes.filterMap Outcome.effect?)
        refine Eq.trans ?_ served
        rw [Option.map_map]
        congr 1
        funext next
        exact Loop.station_append ..
      · obtain ⟨printed, thrown⟩ :=
          @dispatch_short Address (datagram.take hpsdrFrameLen) (by omega) total client
            loop.receiver
        rw [thrown, requestOf_short (by omega)]
        exact congrArg some (nothing _ rfl rfl _ rfl)

/--
For every sequence of datagrams: what the loop has processed, answered, stopped and started,
in order, is what the datagrams ask for one by one; and it exits on the same one.
-/
theorem loop_serves
    (total : RcvrTotal)
    (loop : Loop Address)
    (received : List (Option (Address × List UInt8))) :
    (run (Loop.step total) loop received).map Loop.station =
      run (Station.step total) loop.station received :=
  PartialRun.run_map (Loop.step_station total) loop received

theorem Outcome.eq_start_iff
    (outcome : Outcome Address)
    (client : Address) :
    outcome = .start client ↔ outcome.effect? = some (.start client) := by
  cases outcome <;> simp [effect?]

theorem Outcome.eq_stop_iff (outcome : Outcome Address) :
    outcome = .stop ↔ outcome.effect? = some .stop := by
  cases outcome <;> simp [effect?]

/-- The effect of an iteration is that of the request. -/
theorem receive_effect?
    {total : RcvrTotal}
    {receiver next : Receiver}
    {received : Option (Address × List UInt8)}
    {outcome : Outcome Address}
    (taken : receive total receiver received = some (next, outcome)) :
    ∃ station : Station Address,
      Station.step total ⟨receiver.lastSeqnum, receiver.ep2, []⟩ received = some station ∧
        station.effects = outcome.effect?.toList := by
  have served := Loop.step_station total ⟨receiver, []⟩ received
  have made : Loop.step total ⟨receiver, []⟩ received = some ⟨next, [outcome]⟩ := by
    rw [Loop.step, taken]
    rfl
  rw [made] at served
  refine ⟨_, served.symm, ?_⟩
  have added := congrArg Station.effects (Loop.station_append next [] outcome)
  exact added.trans (List.nil_append _)

/-- Which datagrams start the sender thread, and which stop it. -/
theorem receive_commands
    {total : RcvrTotal}
    {receiver next : Receiver}
    {received : Option (Address × List UInt8)}
    {outcome : Outcome Address}
    (taken : receive total receiver received = some (next, outcome)) :
    (∀ client,
        outcome = .start client ↔
          ∃ datagram,
            received = some (client, datagram) ∧ requestOf datagram = some .start) ∧
      (outcome = .stop ↔
        ∃ client datagram,
          received = some (client, datagram) ∧ requestOf datagram = some .stop) := by
  obtain ⟨station, served, effects⟩ := receive_effect? taken
  simp only [Outcome.eq_start_iff, Outcome.eq_stop_iff, ← Option.mem_toList, ← effects]
  rcases received with _ | ⟨other, datagram⟩
  · cases served
    simp
  · rcases asks : requestOf datagram with _ | request
    · simp only [Station.step, asks, Option.some.injEq] at served
      subst served
      simp [asks]
    · simp only [Station.step, asks] at served
      cases request with
      | ep2 frame =>
          obtain ⟨ep2, _, rfl⟩ := Option.map_eq_some_iff.mp served
          simp [asks]
      | discovery =>
          cases served
          simp [asks]
      | stop =>
          cases served
          simp [asks]
      | start =>
          cases served
          simp [asks, eq_comm]

/-! ## The sequence numbers -/

/-- The frames among the datagrams, in order. -/
def framesOf (received : List (Option (Address × List UInt8))) : List Ep2Buffer :=
  received.filterMap fun one =>
    one.bind fun sent =>
      match requestOf sent.2 with
      | some (.ep2 frame) => some frame
      | _ => none

/-- The reported error of an effect. -/
def Effect.seqError? : Effect Address → Option (UInt32 × UInt32)
  | .processed seqError => seqError
  | _ => none

/-- The reported error of an outcome. -/
def Outcome.seqError? (outcome : Outcome Address) : Option (UInt32 × UInt32) :=
  outcome.effect?.bind Effect.seqError?

/-- What is reported for a number and the one before it. -/
def gap? (numbers : UInt32 × UInt32) : Option (UInt32 × UInt32) :=
  if numbers.1 = numbers.2 + 1 then none else some (numbers.2, numbers.1)

/-- The numbers are those of the datagrams so far, and the gaps among them are reported. -/
structure Station.Counts
    (received : List (Option (Address × List UInt8)))
    (s : Station Address) : Prop where
  last : s.lastSeqnum = ((framesOf received).map seqnumOf).getLastD 0xffffffff
  reported :
    s.effects.filterMap Effect.seqError? =
      (pairs 0xffffffff ((framesOf received).map seqnumOf)).filterMap gap?

theorem framesOf_append
    (first second : List (Option (Address × List UInt8))) :
    framesOf (first ++ second) = framesOf first ++ framesOf second :=
  List.filterMap_append

/-- What is no frame counts for nothing. -/
theorem Station.Counts.other
    {received : List (Option (Address × List UInt8))}
    {s : Station Address}
    (counts : s.Counts received)
    {one : Option (Address × List UInt8)}
    (noFrame : framesOf [one] = [])
    {effects : List (Effect Address)}
    (silent : effects.filterMap Effect.seqError? = []) :
    Counts (received ++ [one]) { s with effects := s.effects ++ effects } := by
  have frames : framesOf (received ++ [one]) = framesOf received := by
    rw [framesOf_append, noFrame, List.append_nil]
  constructor
  · rw [frames]
    exact counts.last
  · rw [frames, List.filterMap_append, silent, List.append_nil]
    exact counts.reported

theorem Station.Counts.ignored
    {received : List (Option (Address × List UInt8))}
    {s : Station Address}
    (counts : s.Counts received)
    {one : Option (Address × List UInt8)}
    (noFrame : framesOf [one] = []) :
    s.Counts (received ++ [one]) := by
  have silent : ([] : List (Effect Address)).filterMap Effect.seqError? = [] := rfl
  have kept := counts.other noFrame silent
  rwa [List.append_nil] at kept

/-- A frame is counted, with the gap in front of it. -/
theorem Station.Counts.frame
    {received : List (Option (Address × List UInt8))}
    {s : Station Address}
    (counts : s.Counts received)
    {one : Option (Address × List UInt8)}
    {frame : Ep2Buffer}
    (isFrame : framesOf [one] = [frame])
    (ep2 : Ep2State) :
    Counts (received ++ [one])
      { lastSeqnum := seqnumOf frame
        ep2 := ep2
        effects :=
          s.effects ++
            [.processed
              (if seqnumOf frame = s.lastSeqnum + 1 then none
                else some (s.lastSeqnum, seqnumOf frame))] } := by
  have numbers :
      (framesOf (received ++ [one])).map seqnumOf =
        (framesOf received).map seqnumOf ++ [seqnumOf frame] := by
    rw [framesOf_append, isFrame, List.map_append, List.map_singleton]
  constructor
  · rw [numbers, List.getLastD_concat]
  · rw [numbers, pairs_append, List.filterMap_append, List.filterMap_append, counts.reported,
      ← counts.last]
    rfl

theorem Station.Counts.step
    {total : RcvrTotal}
    {received : List (Option (Address × List UInt8))}
    {s next : Station Address}
    {one : Option (Address × List UInt8)}
    (counts : s.Counts received)
    (taken : s.step total one = some next) :
    next.Counts (received ++ [one]) := by
  rcases one with _ | ⟨client, datagram⟩
  · cases taken
    exact counts.ignored rfl
  · unfold Station.step at taken
    dsimp only at taken
    rcases asks : requestOf datagram with _ | request
    · rw [asks] at taken
      cases taken
      exact counts.ignored (by simp [framesOf, asks])
    · rw [asks] at taken
      cases request with
      | ep2 frame =>
          obtain ⟨ep2, _, isNext⟩ := Option.map_eq_some_iff.mp taken
          cases isNext
          exact counts.frame (by simp [framesOf, asks]) ep2
      | discovery =>
          cases taken
          exact counts.other (by simp [framesOf, asks]) rfl
      | stop =>
          cases taken
          exact counts.other (by simp [framesOf, asks]) rfl
      | start =>
          cases taken
          exact counts.other (by simp [framesOf, asks]) rfl

/-- There is no gap if and only if the numbers are counted up from the one before. -/
theorem filterMap_gap?_eq_nil_iff
    (before : UInt32)
    (numbers : List UInt32) :
    (pairs before numbers).filterMap gap? = [] ↔
      numbers = (List.range numbers.length).map fun k => before + 1 + UInt32.ofNat k := by
  induction numbers generalizing before with
  | nil =>
      exact iff_of_true rfl rfl
  | cons number rest inductionHypothesis =>
      have shifted :
          ∀ k, before + 1 + UInt32.ofNat (k + 1) = before + 1 + 1 + UInt32.ofNat k := by
        intro k
        rw [UInt32.ofNat_add, UInt32.add_assoc (before + 1), UInt32.add_comm 1]
        rfl
      rw [pairs, List.length_cons, List.range_succ_eq_map, List.map_cons, List.map_map,
        List.cons.injEq]
      have first : before + 1 + UInt32.ofNat 0 = before + 1 := UInt32.add_zero _
      rw [first]
      unfold gap?
      by_cases fits : number = before + 1
      · subst fits
        rw [List.filterMap_cons_none (by rw [if_pos rfl])]
        refine (inductionHypothesis (before + 1)).trans ?_
        rw [eq_self_iff_true, true_and]
        simp only [Function.comp_def, Nat.succ_eq_add_one, shifted]
      · rw [List.filterMap_cons_some (by rw [if_neg fits])]
        exact iff_of_false (List.cons_ne_nil _ _) (fun both => fits both.1)

theorem filterMap_seqError? (loop : Loop Address) :
    loop.station.effects.filterMap Effect.seqError? =
      loop.outcomes.filterMap Outcome.seqError? := by
  unfold Loop.station
  rw [List.filterMap_filterMap]
  rfl

/--
In every run of the loop: what is reported are exactly the gaps between the numbers of the
frames that were served, the first of which should be zero.
-/
theorem seqErrors_eq
    {total : RcvrTotal}
    {received : List (Option (Address × List UInt8))}
    {loop : Loop Address}
    (reached : run (Loop.step total) Loop.start received = some loop) :
    loop.outcomes.filterMap Outcome.seqError? =
        (pairs 0xffffffff ((framesOf received).map seqnumOf)).filterMap gap? ∧
      (loop.outcomes.filterMap Outcome.seqError? = [] ↔
        (framesOf received).map seqnumOf =
          (List.range (framesOf received).length).map UInt32.ofNat) := by
  have served : run (Station.step total) Loop.start.station received = some loop.station := by
    rw [← loop_serves, reached]
    rfl
  have counts : loop.station.Counts received :=
    PartialRun.invariant_history (fun received s => Station.Counts received s)
      ⟨rfl, rfl⟩ Station.Counts.step served
  have reported := counts.reported
  rw [filterMap_seqError?] at reported
  refine ⟨reported, ?_⟩
  rw [reported, filterMap_gap?_eq_nil_iff, List.length_map]
  have zero : ∀ k, (0xffffffff : UInt32) + 1 + UInt32.ofNat k = UInt32.ofNat k := by
    intro k
    exact UInt32.zero_add _
  simp only [zero]

/-- An EP2 datagram of a number below 256, with control bytes that ask for nothing. -/
def idleFrame (number : UInt8) : List UInt8 :=
  [0xef, 0xfe, 1, 2, 0, 0, 0, number] ++ List.replicate 1024 2

/-- What comes in where the frame of number one is lost. -/
def lostFrame : List (Option (Nat × List UInt8)) :=
  [some (0, idleFrame 0), some (0, [0xef, 0xfe, 1]), none, some (0, idleFrame 2)]

theorem seqErrors_eq_lost :
    ∃ loop,
      run (Loop.step ⟨1, by decide, by decide⟩) Loop.start lostFrame = some loop ∧
        loop.outcomes.filterMap Outcome.seqError? = [(0, 2)] := by
  have served :
      (run (Loop.step ⟨1, by decide, by decide⟩) Loop.start lostFrame).isSome = true := by
    decide +kernel
  obtain ⟨loop, reached⟩ := Option.isSome_iff_exists.mp served
  refine ⟨loop, reached, (seqErrors_eq reached).1.trans ?_⟩
  decide +kernel

end LibRtlSdr.Hpsdr
