import LibRtlSdr.BoundedBuffer
import LibRtlSdr.HpsdrLoadPacket

namespace LibRtlSdr.Hpsdr

/-!
# From blocks to packets: `hpsdrsim_sendiq_thr_func`

Each receiver thread appends a block of samples behind those it has kept, hands
packets to `load_packet` as long as more than one packet is there, and moves the
rest to the front of `iqSamples`.  Every access to `iqSamples` is checked here
against its length, and the final `memcpy` against overlap; an iteration that
fails a check has no result.

Live, the blocks come from `downsample`; a recording is read in blocks of 9600
pairs.  The frequency update at the end of an iteration touches none of this
state and is left out.
-/

open BoundedBuffer (window blit read? write? memcpy?)

/-- The floats of `iqSamples`. -/
def iqSamplesLen : Nat :=
  rtlReadCount + iqFrameDataLen * 2

/-- The part of `rcvr_cb` that the loop works on, and the packets handed on so far. -/
structure SendIqState (Sample : Type) where
  iqSampleOffset : Nat
  iqSamplesRemaining : Int
  iqSamples : Nat → Sample
  packets : List (List Sample)

/-- The pairs that are added to `iqSamples_remaining` for one block. -/
def addedSamples (usingIQfiles : Bool) (outputRate : OutputRate) : Nat :=
  if usingIQfiles then
    9600
  else
    match outputRate with
    | .hz48000 => rtlReadCount / (downsample192 * 8)
    | .hz96000 => rtlReadCount / (downsample192 * 4)
    | .hz192000 => rtlReadCount / (downsample192 * 2)
    | .hz384000 => rtlReadCount / downsample192

/--
What an iteration finds: the globals it reads, with the row of the packet table
in force, and a block of as many pairs as are then counted.
-/
structure SendIqInput (usingIQfiles : Bool) (Sample : Type) where
  running : Bool
  packetRow : Fin 8
  outputRate : OutputRate
  block : List Sample
  blockLength :
    block.length = addedSamples usingIQfiles outputRate * 2

section Iteration

variable {Sample : Type}

/-- The state before the first iteration. -/
def SendIqState.initial (iqSamples : Nat → Sample) : SendIqState Sample where
  iqSampleOffset := 0
  iqSamplesRemaining := 0
  iqSamples := iqSamples
  packets := []

/-- The head of an iteration: start afresh unless running, and drop a negative rest. -/
def resetSamples
    (running : Bool)
    (state : SendIqState Sample) :
    SendIqState Sample :=
  let reset :=
    if running then
      state
    else
      { state with
        iqSampleOffset := 0
        iqSamplesRemaining := 0 }
  if reset.iqSamplesRemaining < 0 then
    { reset with iqSamplesRemaining := 0 }
  else
    reset

/-- Append a block of `added` pairs at `iqSamples_remaining * 2`. -/
def appendBlock
    (added : Nat)
    (block : List Sample)
    (state : SendIqState Sample) :
    Option (SendIqState Sample) :=
  (write? iqSamplesLen (state.iqSamplesRemaining.toNat * 2) block
    state.iqSamples).map
    (fun stored =>
      { state with
        iqSamples := stored
        iqSamplesRemaining := state.iqSamplesRemaining + added })

/-- The body of the packet loop: `load_packet` reads one packet. -/
def sendPacket
    (sampsPacket : Nat)
    (state : SendIqState Sample) :
    Option (SendIqState Sample) :=
  (read? iqSamplesLen state.iqSamples (state.iqSampleOffset * 2)
    (sampsPacket * 2)).map
    (fun packet =>
      { state with
        packets := state.packets ++ [packet]
        iqSamplesRemaining := state.iqSamplesRemaining - sampsPacket
        iqSampleOffset := state.iqSampleOffset + sampsPacket })

theorem nsampsPacket_bounds (row : Fin 8) :
    0 < nsampsPacket row ∧ nsampsPacket row ≤ 126 := by
  revert row
  decide

/-- A packet that is sent is subtracted from the rest. -/
theorem remaining_of_sendPacket
    {sampsPacket : Nat}
    {state next : SendIqState Sample}
    (sent : sendPacket sampsPacket state = some next) :
    next.iqSamplesRemaining =
      state.iqSamplesRemaining - sampsPacket := by
  unfold sendPacket at sent
  obtain ⟨packet, _, isNext⟩ := Option.map_eq_some_iff.mp sent
  rw [← isNext]

/-- The loop `while (iqSamples_remaining > samps_packet)`. -/
def sendPackets
    (packetRow : Fin 8)
    (state : SendIqState Sample) :
    Option (SendIqState Sample) :=
  if nsampsPacket packetRow < state.iqSamplesRemaining then
    match _sent : sendPacket (nsampsPacket packetRow) state with
    | none =>
        none
    | some next =>
        sendPackets packetRow next
  else
    some state
termination_by state.iqSamplesRemaining.toNat
decreasing_by
  have bounds := nsampsPacket_bounds packetRow
  have remaining := remaining_of_sendPacket _sent
  omega

/-- Move the remaining samples to the beginning of the buffer. -/
def moveRemaining
    (state : SendIqState Sample) :
    Option (SendIqState Sample) :=
  if 0 < state.iqSampleOffset ∧ 0 < state.iqSamplesRemaining then
    (memcpy? iqSamplesLen 0 (state.iqSampleOffset * 2)
      (state.iqSamplesRemaining.toNat * 2) state.iqSamples).map
      (fun moved =>
        { state with
          iqSamples := moved
          iqSampleOffset := 0 })
  else
    some state

/-- One iteration of the thread. -/
def sendIqIteration
    (usingIQfiles : Bool)
    (state : SendIqState Sample)
    (input : SendIqInput usingIQfiles Sample) :
    Option (SendIqState Sample) :=
  (appendBlock (addedSamples usingIQfiles input.outputRate) input.block
    (resetSamples input.running state)).bind
    (fun filled =>
      (sendPackets input.packetRow filled).bind moveRemaining)

/-! ## The stream through the buffer -/

namespace SendIqState

/-- The samples that are kept for later packets. -/
def kept (state : SendIqState Sample) : List Sample :=
  window state.iqSamples (state.iqSampleOffset * 2)
    (state.iqSamplesRemaining.toNat * 2)

/-- Everything that was handed on, followed by what is kept. -/
def stream (state : SendIqState Sample) : List Sample :=
  state.packets.flatten ++ state.kept

/-- What `load_packet` finds at `out_buf`. -/
def iqBuffer (state : SendIqState Sample) : IqBuffer Sample where
  iqSampleOffset := state.iqSampleOffset
  iqSamples := state.iqSamples

/-- A packet is what `load_packet` reads at `out_buf[0]`, `out_buf[1]` and so on. -/
theorem window_eq_outBuf
    (state : SendIqState Sample)
    (length : Nat) :
    window state.iqSamples (state.iqSampleOffset * 2) length =
      (List.range length).map state.iqBuffer.outBuf := by
  unfold window
  rw [List.range'_eq_map_range, List.map_map]
  rfl

/-- The state between two iterations: compact, with at most one packet kept. -/
structure Ready (state : SendIqState Sample) : Prop where
  offset : state.iqSampleOffset = 0
  nonneg : 0 ≤ state.iqSamplesRemaining
  leMax : state.iqSamplesRemaining ≤ 126

end SendIqState

variable {state : SendIqState Sample}

/-- A running receiver with a nonnegative rest keeps its samples. -/
theorem resetSamples_of_running
    (nonneg : 0 ≤ state.iqSamplesRemaining) :
    resetSamples true state = state := by
  unfold resetSamples
  rw [if_pos rfl, if_neg (Int.not_lt.mpr nonneg)]

/-- A block that fits is appended to the stream. -/
theorem appendBlock_spec
    {added : Nat}
    {block : List Sample}
    (blockLength : block.length = added * 2)
    (offset : state.iqSampleOffset = 0)
    (nonneg : 0 ≤ state.iqSamplesRemaining)
    (fits :
      (state.iqSamplesRemaining.toNat + added) * 2 ≤ iqSamplesLen) :
    ∃ filled,
      appendBlock added block state = some filled ∧
        filled.iqSampleOffset = 0 ∧
        filled.iqSamplesRemaining = state.iqSamplesRemaining + added ∧
        filled.stream = state.stream ++ block := by
  have stored :
      write? iqSamplesLen (state.iqSamplesRemaining.toNat * 2) block
          state.iqSamples =
        some (blit (state.iqSamplesRemaining.toNat * 2) block
          state.iqSamples) :=
    if_pos (by omega)
  unfold appendBlock
  rw [stored]
  refine ⟨_, rfl, offset, rfl, ?_⟩
  have longer :=
    BoundedBuffer.window_blit_append 0
      (state.iqSamplesRemaining.toNat * 2) block state.iqSamples
  have lengths :
      (state.iqSamplesRemaining + added).toNat * 2 =
        state.iqSamplesRemaining.toNat * 2 + block.length := by
    omega
  simp only [Nat.zero_add] at longer
  simp only [SendIqState.stream, SendIqState.kept, offset, lengths,
    Nat.zero_mul, longer, List.append_assoc]

/-- One turn of the packet loop moves a packet from the kept samples to the packets. -/
theorem sendPacket_spec
    {sampsPacket : Nat}
    (enough : (sampsPacket : Int) < state.iqSamplesRemaining)
    (fits :
      (state.iqSampleOffset + state.iqSamplesRemaining.toNat) * 2 ≤
        iqSamplesLen) :
    ∃ next,
      sendPacket sampsPacket state = some next ∧
        next.iqSampleOffset = state.iqSampleOffset + sampsPacket ∧
        next.iqSamplesRemaining =
          state.iqSamplesRemaining - sampsPacket ∧
        next.stream = state.stream := by
  have inside :
      read? iqSamplesLen state.iqSamples (state.iqSampleOffset * 2)
          (sampsPacket * 2) =
        some (window state.iqSamples (state.iqSampleOffset * 2)
          (sampsPacket * 2)) :=
    if_pos (by omega)
  unfold sendPacket
  rw [inside]
  refine ⟨_, rfl, rfl, rfl, ?_⟩
  have parts :=
    BoundedBuffer.window_add state.iqSamples (state.iqSampleOffset * 2)
      (sampsPacket * 2)
      ((state.iqSamplesRemaining - sampsPacket).toNat * 2)
  have lengths :
      sampsPacket * 2 +
          (state.iqSamplesRemaining - sampsPacket).toNat * 2 =
        state.iqSamplesRemaining.toNat * 2 := by
    omega
  rw [lengths] at parts
  simp only [SendIqState.stream, SendIqState.kept, parts,
    List.flatten_append, List.flatten_singleton, List.append_assoc,
    Nat.add_mul]

/--
The packet loop ends with at most one packet kept, and with something kept if
anything was there.  The offset counts what was sent.
-/
theorem sendPackets_spec
    (packetRow : Fin 8)
    (positive : 0 < state.iqSamplesRemaining)
    (fits :
      (state.iqSampleOffset + state.iqSamplesRemaining.toNat) * 2 ≤
        iqSamplesLen) :
    ∃ final,
      sendPackets packetRow state = some final ∧
        0 < final.iqSamplesRemaining ∧
        final.iqSamplesRemaining ≤ nsampsPacket packetRow ∧
        (final.iqSampleOffset : Int) + final.iqSamplesRemaining =
          state.iqSampleOffset + state.iqSamplesRemaining ∧
        final.stream = state.stream := by
  have bounds := nsampsPacket_bounds packetRow
  induction measure : state.iqSamplesRemaining.toNat
    using Nat.strong_induction_on generalizing state with
  | _ remaining inductionHypothesis =>
      rw [sendPackets]
      by_cases enough :
          (nsampsPacket packetRow : Int) < state.iqSamplesRemaining
      · obtain ⟨next, sent, offset, rest, sameStream⟩ :=
          sendPacket_spec enough fits
        obtain ⟨final, reached, finalPositive, finalLe, total,
            finalStream⟩ :=
          inductionHypothesis next.iqSamplesRemaining.toNat (by omega)
            (by omega) (by omega) rfl
        refine ⟨final, ?_, finalPositive, finalLe, by omega,
          finalStream.trans sameStream⟩
        rw [if_pos enough]
        split
        · next failed =>
            rw [failed] at sent
            cases sent
        · next found isFound =>
            rw [isFound, Option.some.injEq] at sent
            rw [sent]
            exact reached
      · rw [if_neg enough]
        exact ⟨state, rfl, positive, Int.not_lt.mp enough, rfl, rfl⟩

/--
When the kept samples are no more than those that were sent, the copy to the
front is in bounds and does not overlap, and the kept samples stay.
-/
theorem moveRemaining_spec
    (positive : 0 < state.iqSamplesRemaining)
    (disjoint :
      state.iqSamplesRemaining ≤ state.iqSampleOffset)
    (fits :
      (state.iqSampleOffset + state.iqSamplesRemaining.toNat) * 2 ≤
        iqSamplesLen) :
    ∃ final,
      moveRemaining state = some final ∧
        final.iqSampleOffset = 0 ∧
        final.iqSamplesRemaining = state.iqSamplesRemaining ∧
        final.stream = state.stream := by
  obtain ⟨moved, isMoved⟩ :
      ∃ moved,
        memcpy? iqSamplesLen 0 (state.iqSampleOffset * 2)
          (state.iqSamplesRemaining.toNat * 2) state.iqSamples =
            some moved :=
    ⟨_, if_pos ⟨by omega, by omega, by omega⟩⟩
  have same := BoundedBuffer.window_memcpy isMoved
  unfold moveRemaining
  rw [if_pos ⟨by omega, positive⟩, isMoved]
  refine ⟨_, rfl, rfl, rfl, ?_⟩
  simp only [SendIqState.stream, SendIqState.kept, Nat.zero_mul, same]

/-- The blocks that the live path appends are longer than two packets. -/
theorem addedSamples_live_bounds (outputRate : OutputRate) :
    252 < addedSamples false outputRate ∧
      addedSamples false outputRate ≤ 2048 := by
  cases outputRate <;> decide

/-- A live iteration succeeds, appends its block to the stream, and is ready again. -/
theorem SendIqState.Ready.iteration
    (ready : state.Ready)
    (input : SendIqInput false Sample)
    (running : input.running = true) :
    ∃ final,
      sendIqIteration false state input = some final ∧
        final.Ready ∧
        final.stream = state.stream ++ input.block := by
  have added := addedSamples_live_bounds input.outputRate
  have bounds := nsampsPacket_bounds input.packetRow
  have capacity : iqSamplesLen = 16510 := rfl
  obtain ⟨offset, nonneg, leMax⟩ := ready
  obtain ⟨filled, appended, filledOffset, filledRest, filledStream⟩ :=
    appendBlock_spec input.blockLength offset nonneg (by omega)
  obtain ⟨sent, loop, sentPositive, sentLe, total, sentStream⟩ :=
    sendPackets_spec input.packetRow
      (by omega : 0 < filled.iqSamplesRemaining) (by omega)
  obtain ⟨final, moved, finalOffset, finalRest, finalStream⟩ :=
    moveRemaining_spec sentPositive (by omega) (by omega)
  refine ⟨final, ?_, ⟨finalOffset, by omega, by omega⟩, ?_⟩
  · unfold sendIqIteration
    rw [running, resetSamples_of_running nonneg, appended,
      Option.bind_some, loop, Option.bind_some, moved]
  · rw [finalStream, sentStream, filledStream]

/--
Every run of live iterations stays inside `iqSamples` and never copies between
overlapping places.  Each iteration starts with offset zero and at most 126
pairs, and what was handed to `load_packet`, followed by what is kept, is the
blocks one after the other.
-/
theorem sendIq_live_stream
    (iqSamples : Nat → Sample)
    (inputs : List (SendIqInput false Sample))
    (running : ∀ input ∈ inputs, input.running = true) :
    ∃ state,
      PartialRun.run (sendIqIteration false)
          (SendIqState.initial iqSamples) inputs = some state ∧
        state.Ready ∧
        state.packets.flatten ++ state.kept =
          (inputs.map SendIqInput.block).flatten := by
  induction inputs using List.reverseRecOn with
  | nil =>
      have below : (0 : Int) ≤ 126 := by decide
      exact ⟨_, rfl, ⟨rfl, Int.le_refl 0, below⟩, rfl⟩
  | append_singleton earlier input inductionHypothesis =>
      obtain ⟨middle, reached, ready, stream⟩ :=
        inductionHypothesis
          (fun other member => running other (by simp [member]))
      obtain ⟨final, taken, finalReady, finalStream⟩ :=
        ready.iteration input (running input (by simp))
      refine ⟨final,
        PartialRun.run_concat_eq_some.mpr ⟨middle, reached, taken⟩,
        finalReady, ?_⟩
      calc
        final.packets.flatten ++ final.kept
            = middle.stream ++ input.block := finalStream
        _ = (earlier.map SendIqInput.block).flatten ++ input.block := by
            rw [← stream]
            rfl
        _ = ((earlier ++ [input]).map SendIqInput.block).flatten := by
            rw [List.map_append, List.flatten_append, List.map_singleton,
              List.flatten_singleton]

/-! ## Recordings -/

/-- A block of a recording is longer than the whole buffer. -/
theorem file_block_length (input : SendIqInput true Sample) :
    iqSamplesLen < input.block.length := by
  have added : addedSamples true input.outputRate = 9600 := rfl
  rw [input.blockLength, added]
  decide

/--
In no state does the block of a recording fit behind the remaining samples, so
that no iteration stays inside `iqSamples`.
-/
theorem file_iteration_outside
    (state : SendIqState Sample)
    (input : SendIqInput true Sample) :
    ¬ (resetSamples input.running state).iqSamplesRemaining.toNat * 2 +
          input.block.length ≤ iqSamplesLen ∧
      sendIqIteration true state input = none := by
  have tooLong := file_block_length input
  have outside :
      ¬ (resetSamples input.running state).iqSamplesRemaining.toNat * 2 +
          input.block.length ≤ iqSamplesLen := by
    omega
  refine ⟨outside, ?_⟩
  unfold sendIqIteration appendBlock write?
  rw [if_neg outside]
  rfl

/--
Whatever the state, copying a block of a recording leaves `iqSamples`, and so
every run of the thread on a recording leaves it in its first iteration.
-/
theorem sendIq_file_never_inside
    (iqSamples : Nat → Sample)
    (input : SendIqInput true Sample)
    (later : List (SendIqInput true Sample)) :
    (∀ state : SendIqState Sample,
        ¬ (resetSamples input.running state).iqSamplesRemaining.toNat * 2 +
            input.block.length ≤ iqSamplesLen) ∧
      PartialRun.run (sendIqIteration true)
          (SendIqState.initial iqSamples) (input :: later) = none := by
  refine ⟨fun state => (file_iteration_outside state input).1, ?_⟩
  rw [PartialRun.run_cons,
    (file_iteration_outside (SendIqState.initial iqSamples) input).2]
  rfl

end Iteration

/-- A live block of zeros at 48 kHz. -/
def quietBlock (packetRow : Fin 8) : SendIqInput false Int where
  running := true
  packetRow := packetRow
  outputRate := .hz48000
  block := List.replicate 512 0
  blockLength := List.length_replicate

/-- Two iterations with different packet sizes. -/
theorem sendIq_live_stream_quiet :
    (∀ input ∈ [quietBlock 0, quietBlock 7], input.running = true) ∧
      ∃ state,
        PartialRun.run (sendIqIteration false)
            (SendIqState.initial (fun _ => 0))
            [quietBlock 0, quietBlock 7] = some state ∧
          state.Ready ∧
          state.packets.flatten ++ state.kept =
            ([quietBlock 0, quietBlock 7].map
              SendIqInput.block).flatten := by
  have running :
      ∀ input ∈ [quietBlock 0, quietBlock 7], input.running = true := by
    intro input member
    rw [List.mem_cons, List.mem_singleton] at member
    rcases member with first | second
    · rw [first]
      rfl
    · rw [second]
      rfl
  exact ⟨running, sendIq_live_stream (fun _ => 0) _ running⟩

/-- The first block of a recording of zeros. -/
def quietFileBlock : SendIqInput true Int where
  running := true
  packetRow := 0
  outputRate := .hz48000
  block := List.replicate 19200 0
  blockLength := List.length_replicate

/-- The very first block of a recording does not fit into the buffer. -/
theorem sendIq_file_first_block_outside :
    ¬ (resetSamples quietFileBlock.running
            (SendIqState.initial
              (fun _ => (0 : Int)))).iqSamplesRemaining.toNat * 2 +
        quietFileBlock.block.length ≤ iqSamplesLen ∧
      sendIqIteration true (SendIqState.initial (fun _ => 0))
        quietFileBlock = none :=
  file_iteration_outside (SendIqState.initial (fun _ => 0)) quietFileBlock

end LibRtlSdr.Hpsdr
