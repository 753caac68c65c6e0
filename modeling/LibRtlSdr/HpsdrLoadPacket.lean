import LibRtlSdr.HpsdrEp2Refinement

namespace LibRtlSdr.Hpsdr

/-!
# Packing one receiver's samples: `load_packet`

Each receiver thread writes its own samples into the shared `payload`.  A slot
of the payload has six bytes for each receiver of the frame and two microphone
bytes; a thread stores into the columns it owns and steps over the rest.  The
last real receiver also fills the columns of the copies.

The nested loops are kept as they stand, with the position `b` in the payload
and the sample index `i` in a cursor.  The second half of the module sums a
call up as one patch of the payload.
-/

/-- The C conversions from a stored sample to the integers that are sent. -/
structure SampleCast (Sample : Type) where
  toShort : Sample → BitVec 16
  toInt : Sample → BitVec 32

/-- The part of `rcvr_cb` that `load_packet` reads. -/
structure IqBuffer (Sample : Type) where
  iqSampleOffset : Nat
  iqSamples : Nat → Sample

/-- `payload`, by byte position. -/
abbrev Payload := Nat → UInt8

/-- The locals `b` and `i` of `load_packet` and the payload it writes. -/
structure PacketCursor where
  b : Nat
  i : Nat
  payload : Payload

variable {Sample : Type}

/-- `out_buf[i]`, counted from the samples not sent yet. -/
def IqBuffer.outBuf (buffer : IqBuffer Sample) (i : Nat) : Sample :=
  buffer.iqSamples (buffer.iqSampleOffset * 2 + i)

/--
Byte `k` of one component of a sample.  The live path sends a 16-bit value and
skips the third byte; the path for recordings sends the upper three bytes of a
32-bit value, lowest first.
-/
def componentByte
    (cast : SampleCast Sample)
    (usingIQfiles : Bool)
    (sample : Sample)
    (k : Nat) :
    Option UInt8 :=
  if usingIQfiles then
    let iqiData := cast.toInt sample
    if k = 0 then
      some ⟨((iqiData &&& 0xff00) >>> 8).setWidth 8⟩
    else if k = 1 then
      some ⟨((iqiData &&& 0xff0000) >>> 16).setWidth 8⟩
    else
      some ⟨((iqiData &&& 0xff000000) >>> 24).setWidth 8⟩
  else
    let iqsData := cast.toShort sample
    if k = 0 then
      some ⟨(iqsData.sshiftRight 8).setWidth 8⟩
    else if k = 1 then
      some ⟨(iqsData &&& 0xff).setWidth 8⟩
    else
      none

/-- `payload[b++] = byte`, or `b++` alone where no byte is stored. -/
def putByte (byte : Option UInt8) (cursor : PacketCursor) : PacketCursor where
  b := cursor.b + 1
  i := cursor.i
  payload :=
    match byte with
    | none =>
        cursor.payload
    | some value =>
        Function.update cursor.payload cursor.b value

/-- Store the three bytes of one component. -/
def putComponent
    (cast : SampleCast Sample)
    (usingIQfiles : Bool)
    (sample : Sample)
    (cursor : PacketCursor) :
    PacketCursor :=
  let byte := componentByte cast usingIQfiles sample
  putByte (byte 2) (putByte (byte 1) (putByte (byte 0) cursor))

/-- `copy_total`: the last column of a frame with copies. -/
def copyTotal (state : Ep2State) : Nat :=
  (state.activeNumRcvrs - 1) + state.numCopyRcvrs

/-- `do_copy`: the last real receiver fills the columns of the copies. -/
def DoCopy (state : Ep2State) (rcvr : Nat) : Prop :=
  0 < state.numCopyRcvrs ∧ rcvr = state.activeNumRcvrs - 1

instance (state : Ep2State) (rcvr : Nat) : Decidable (DoCopy state rcvr) :=
  inferInstanceAs (Decidable (_ ∧ _))

/-- The test under which column `j` is stored by receiver `rcvr`. -/
def Stores (state : Ep2State) (rcvr j : Nat) : Prop :=
  j = rcvr ∨ (DoCopy state rcvr ∧ state.copyRcvr j = j)

instance (state : Ep2State) (rcvr j : Nat) : Decidable (Stores state rcvr j) :=
  inferInstanceAs (Decidable (_ ∨ _))

/-- The receivers of a frame, real ones and copies. -/
def frameRcvrs (state : Ep2State) : Nat :=
  state.activeNumRcvrs + state.numCopyRcvrs

/-- The body of the loop over `j`. -/
def packColumn
    (cast : SampleCast Sample)
    (usingIQfiles : Bool)
    (state : Ep2State)
    (rcvr : Nat)
    (buffer : IqBuffer Sample)
    (cursor : PacketCursor)
    (j : Nat) :
    PacketCursor :=
  if Stores state rcvr j then
    let stored :=
      putComponent cast usingIQfiles (buffer.outBuf (cursor.i + 1))
        (putComponent cast usingIQfiles (buffer.outBuf cursor.i) cursor)
    if DoCopy state rcvr then
      if j = copyTotal state then
        { stored with i := stored.i + 2 }
      else
        stored
    else
      { stored with i := stored.i + 2 }
  else
    { cursor with b := cursor.b + 6 }

/-- One time slot: every column, then the microphone bytes are skipped. -/
def packSlot
    (cast : SampleCast Sample)
    (usingIQfiles : Bool)
    (state : Ep2State)
    (rcvr : Nat)
    (buffer : IqBuffer Sample)
    (cursor : PacketCursor) :
    PacketCursor :=
  let packed :=
    (List.range (frameRcvrs state)).foldl
      (packColumn cast usingIQfiles state rcvr buffer) cursor
  { packed with b := packed.b + 2 }

section Cursor

variable
  (cast : SampleCast Sample)
  (usingIQfiles : Bool)
  (state : Ep2State)
  (rcvr : Nat)
  (buffer : IqBuffer Sample)

@[simp] theorem putByte_b
    (byte : Option UInt8)
    (cursor : PacketCursor) :
    (putByte byte cursor).b = cursor.b + 1 :=
  rfl

@[simp] theorem putComponent_b
    (sample : Sample)
    (cursor : PacketCursor) :
    (putComponent cast usingIQfiles sample cursor).b = cursor.b + 3 :=
  rfl

/-- A column is six bytes wide, whether it is stored or not. -/
@[simp] theorem packColumn_b
    (cursor : PacketCursor)
    (j : Nat) :
    (packColumn cast usingIQfiles state rcvr buffer cursor j).b =
      cursor.b + 6 := by
  unfold packColumn
  split_ifs <;> rfl

/-- The first `count` columns of a slot end at `b + 6 * count`. -/
theorem foldl_packColumn_b
    (cursor : PacketCursor)
    (count : Nat) :
    ((List.range count).foldl
      (packColumn cast usingIQfiles state rcvr buffer) cursor).b =
      cursor.b + 6 * count := by
  induction count with
  | zero =>
      rfl
  | succ count inductionHypothesis =>
      rw [List.range_succ, List.foldl_append, List.foldl_cons,
        List.foldl_nil, packColumn_b, inductionHypothesis]
      omega

/-- The bytes of a slot: six for each column, two for the microphone. -/
def slotStride (count : Nat) : Nat :=
  6 * count + 2

@[simp] theorem packSlot_b (cursor : PacketCursor) :
    (packSlot cast usingIQfiles state rcvr buffer cursor).b =
      cursor.b + slotStride (frameRcvrs state) := by
  simp only [packSlot, foldl_packColumn_b, slotStride]
  omega

/-- The loop `while (b < offsetx)`. -/
def packBank
    (offsetx : Nat)
    (cursor : PacketCursor) :
    PacketCursor :=
  if cursor.b < offsetx then
    packBank offsetx (packSlot cast usingIQfiles state rcvr buffer cursor)
  else
    cursor
termination_by offsetx - cursor.b
decreasing_by
  rw [packSlot_b, slotStride]
  omega

/-- `offset1`: where the lower bank ends. -/
def bankEnd1 : Nat :=
  if 0 < state.numCopyRcvrs then
    frameOffset1 (copyTotal state)
  else
    state.frameOffset1

/-- `offset2`: where the upper bank ends. -/
def bankEnd2 : Nat :=
  if 0 < state.numCopyRcvrs then
    frameOffset2 (copyTotal state)
  else
    state.frameOffset2

/-- One turn of the loop over the two banks; the bank is chosen by `i == 0`. -/
def packHalf (cursor : PacketCursor) : PacketCursor :=
  let offsetx := if cursor.i = 0 then bankEnd1 state else bankEnd2 state
  { packBank cast usingIQfiles state rcvr buffer offsetx cursor with b := 528 }

/-- The packing part of `load_packet`, under `send_lock`. -/
def loadPacket (payload : Payload) : PacketCursor :=
  packHalf cast usingIQfiles state rcvr buffer
    (packHalf cast usingIQfiles state rcvr buffer
      { b := 16, i := 0, payload := payload })

/-! ## A call as one patch of the payload -/

/-- The bytes of one component stored at `base`. -/
def componentPatch
    (sample : Sample)
    (base position : Nat) :
    Option UInt8 :=
  if base ≤ position ∧ position < base + 3 then
    componentByte cast usingIQfiles sample (position - base)
  else
    none

/-- A byte put at the cursor changes nothing else. -/
theorem putByte_payload_apply
    (byte : Option UInt8)
    (cursor : PacketCursor)
    (position : Nat) :
    (putByte byte cursor).payload position =
      if position = cursor.b then
        byte.getD (cursor.payload position)
      else
        cursor.payload position := by
  cases byte with
  | none =>
      simp [putByte]
  | some value =>
      simp [putByte, Function.update_apply]

theorem putComponent_payload
    (sample : Sample)
    (cursor : PacketCursor) :
    (putComponent cast usingIQfiles sample cursor).payload =
      OverlayWrites.overlay
        (componentPatch cast usingIQfiles sample cursor.b)
        cursor.payload := by
  funext position
  simp only [putComponent, putByte_payload_apply, OverlayWrites.overlay,
    componentPatch]
  by_cases inside : cursor.b ≤ position ∧ position < cursor.b + 3
  · rw [if_pos inside]
    have cases :
        position = cursor.b ∨ position = cursor.b + 1 ∨
          position = cursor.b + 2 := by
      omega
    rcases cases with same | same | same <;> subst same <;>
      simp [Nat.add_assoc]
  · have outside :
        position ≠ cursor.b ∧ position ≠ cursor.b + 1 ∧
          position ≠ cursor.b + 1 + 1 := by
      omega
    simp [inside, outside]

/-- The bytes of one column stored at `base`, from the samples `i` and `i + 1`. -/
def columnPatch
    (base i position : Nat) :
    Option UInt8 :=
  if base ≤ position ∧ position < base + 6 then
    componentByte cast usingIQfiles
      (buffer.outBuf (i + (position - base) / 3)) ((position - base) % 3)
  else
    none

/-- A stored column holds its two components one after the other. -/
theorem putComponent_pair_payload
    (i : Nat)
    (cursor : PacketCursor) :
    (putComponent cast usingIQfiles (buffer.outBuf (i + 1))
        (putComponent cast usingIQfiles (buffer.outBuf i) cursor)).payload =
      OverlayWrites.overlay
        (columnPatch cast usingIQfiles buffer cursor.b i)
        cursor.payload := by
  rw [putComponent_payload, putComponent_payload, putComponent_b]
  funext position
  simp only [OverlayWrites.overlay, componentPatch, columnPatch]
  by_cases lower : cursor.b ≤ position ∧ position < cursor.b + 3
  · have quotient : (position - cursor.b) / 3 = 0 := by omega
    have remainder : (position - cursor.b) % 3 = position - cursor.b := by
      omega
    rw [if_neg (by omega), if_pos lower, if_pos (by omega), quotient,
      remainder]
    rfl
  · by_cases upper :
        cursor.b + 3 ≤ position ∧ position < cursor.b + 3 + 3
    · have quotient : (position - cursor.b) / 3 = 1 := by omega
      have remainder :
          (position - cursor.b) % 3 = position - (cursor.b + 3) := by
        omega
      rw [if_pos upper, if_neg lower, if_pos (by omega), quotient,
        remainder]
      rfl
    · rw [if_neg upper, if_neg lower, if_neg (by omega)]
      rfl

theorem packColumn_payload
    (cursor : PacketCursor)
    (j : Nat) :
    (packColumn cast usingIQfiles state rcvr buffer cursor j).payload =
      if Stores state rcvr j then
        OverlayWrites.overlay
          (columnPatch cast usingIQfiles buffer cursor.b cursor.i)
          cursor.payload
      else
        cursor.payload := by
  rw [← putComponent_pair_payload]
  unfold packColumn
  split_ifs <;> rfl

/-- The column after which a receiver moves on to its next sample. -/
def lastColumn : Nat :=
  if DoCopy state rcvr then copyTotal state else rcvr

/-- A stored column advances the sample index if it is the last one. -/
theorem packColumn_i
    (cursor : PacketCursor)
    (j : Nat) :
    (packColumn cast usingIQfiles state rcvr buffer cursor j).i =
      if Stores state rcvr j ∧ j = lastColumn state rcvr then
        cursor.i + 2
      else
        cursor.i := by
  unfold packColumn
  by_cases stores : Stores state rcvr j
  · rw [if_pos stores]
    by_cases copies : DoCopy state rcvr
    · have lastIs : lastColumn state rcvr = copyTotal state :=
        if_pos copies
      rw [if_pos copies, lastIs]
      by_cases last : j = copyTotal state
      · rw [if_pos last, if_pos ⟨stores, last⟩]
        rfl
      · rw [if_neg last, if_neg (fun both => last both.2)]
        rfl
    · have lastIs : lastColumn state rcvr = rcvr :=
        if_neg copies
      have own : j = rcvr := by
        rcases stores with own | copied
        · exact own
        · exact (copies copied.1).elim
      rw [if_neg copies, lastIs, if_pos ⟨stores, own⟩]
      rfl
  · rw [if_neg stores, if_neg (fun both => stores both.1)]

/-- No stored column of a frame comes after the last one. -/
theorem Stores.le_lastColumn
    {state : Ep2State}
    {rcvr j : Nat}
    (stores : Stores state rcvr j)
    (inFrame : j < frameRcvrs state) :
    j ≤ lastColumn state rcvr := by
  unfold lastColumn
  unfold frameRcvrs at inFrame
  split_ifs with copies
  · unfold copyTotal
    omega
  · rcases stores with own | copied
    · exact Nat.le_of_eq own
    · exact (copies copied.1).elim

/-- Byte `within` of a slot whose first `count` columns are done, if it is stored. -/
def slotCell
    (count i within : Nat) :
    Option UInt8 :=
  if within < 6 * count ∧ Stores state rcvr (within / 6) then
    componentByte cast usingIQfiles
      (buffer.outBuf (i + within % 6 / 3)) (within % 3)
  else
    none

/-- The bytes that the first `count` columns of a slot at `base` store. -/
def slotPatch
    (count base i position : Nat) :
    Option UInt8 :=
  if base ≤ position then
    slotCell cast usingIQfiles state rcvr buffer count i (position - base)
  else
    none

/-- Within a slot all stored columns take the same sample. -/
theorem foldl_packColumn
    (cursor : PacketCursor)
    {count : Nat}
    (inFrame : count ≤ frameRcvrs state) :
    ((List.range count).foldl
        (packColumn cast usingIQfiles state rcvr buffer) cursor).i =
        (if Stores state rcvr (lastColumn state rcvr) ∧
            lastColumn state rcvr < count then
          cursor.i + 2
        else
          cursor.i) ∧
      ((List.range count).foldl
        (packColumn cast usingIQfiles state rcvr buffer) cursor).payload =
        OverlayWrites.overlay
          (slotPatch cast usingIQfiles state rcvr buffer count
            cursor.b cursor.i)
          cursor.payload := by
  induction count with
  | zero =>
      refine ⟨by simp, ?_⟩
      funext position
      have nothing (within : Nat) :
          slotCell cast usingIQfiles state rcvr buffer 0 cursor.i within =
            none :=
        if_neg (fun both => absurd both.1 (by omega))
      simp [OverlayWrites.overlay, slotPatch, nothing]
  | succ count inductionHypothesis =>
      obtain ⟨sampleIndex, written⟩ :=
        inductionHypothesis (Nat.le_of_succ_le inFrame)
      rw [List.range_succ, List.foldl_append, List.foldl_cons,
        List.foldl_nil]
      generalize folded :
        (List.range count).foldl
          (packColumn cast usingIQfiles state rcvr buffer) cursor =
            middle at sampleIndex written
      have middleB : middle.b = cursor.b + 6 * count := by
        rw [← folded, foldl_packColumn_b]
      rw [packColumn_i, packColumn_payload, written]
      by_cases stores : Stores state rcvr count
      · have notBefore : ¬ lastColumn state rcvr < count :=
          Nat.not_lt.mpr (stores.le_lastColumn inFrame)
        have sameSample : middle.i = cursor.i := by
          rw [sampleIndex, if_neg (fun both => notBefore both.2)]
        rw [sameSample, middleB, if_pos stores]
        constructor
        · by_cases last : count = lastColumn state rcvr
          · simp [← last, stores]
          · have laterLast : ¬ lastColumn state rcvr < count + 1 := by
              omega
            simp [last, laterLast]
        · funext position
          simp only [OverlayWrites.overlay, columnPatch, slotPatch, slotCell]
          by_cases here :
              cursor.b + 6 * count ≤ position ∧
                position < cursor.b + 6 * count + 6
          · have column : (position - cursor.b) / 6 = count := by omega
            have within :
                position - (cursor.b + 6 * count) =
                  (position - cursor.b) % 6 := by
              omega
            have byteIndex :
                (position - cursor.b) % 6 % 3 =
                  (position - cursor.b) % 3 := by
              omega
            have below : ¬ position - cursor.b < 6 * count := by omega
            have inSlot : position - cursor.b < 6 * (count + 1) := by omega
            have above : cursor.b ≤ position := by omega
            simp [here, above, column, stores, within, byteIndex, below,
              inSlot]
          · rw [if_neg here, Option.getD_none]
            have sameBytes :
                cursor.b ≤ position →
                (position - cursor.b < 6 * (count + 1) ↔
                  position - cursor.b < 6 * count) := by
              omega
            by_cases above : cursor.b ≤ position
            · simp [above, sameBytes above]
            · simp [above]
      · rw [if_neg stores, if_neg (fun both => stores both.1), sampleIndex]
        constructor
        · by_cases last : count = lastColumn state rcvr
          · simp [← last, stores]
          · simp only [show lastColumn state rcvr < count + 1 ↔
              lastColumn state rcvr < count by omega]
        · funext position
          simp only [OverlayWrites.overlay, slotPatch, slotCell]
          by_cases here :
              cursor.b + 6 * count ≤ position ∧
                position < cursor.b + 6 * count + 6
          · have column : (position - cursor.b) / 6 = count := by omega
            simp [column, stores]
          · have sameBytes :
                cursor.b ≤ position →
                (position - cursor.b < 6 * (count + 1) ↔
                  position - cursor.b < 6 * count) := by
              omega
            by_cases above : cursor.b ≤ position
            · simp [above, sameBytes above]
            · simp [above]

/-- How far a receiver moves in its samples with each slot. -/
def slotAdvance : Nat :=
  if Stores state rcvr (lastColumn state rcvr) ∧
      lastColumn state rcvr < frameRcvrs state then
    2
  else
    0

@[simp] theorem packSlot_i (cursor : PacketCursor) :
    (packSlot cast usingIQfiles state rcvr buffer cursor).i =
      cursor.i + slotAdvance state rcvr := by
  have packed := (foldl_packColumn cast usingIQfiles state rcvr buffer
    cursor (Nat.le_refl _)).1
  simp only [packSlot, packed, slotAdvance]
  split_ifs <;> rfl

theorem packSlot_payload (cursor : PacketCursor) :
    (packSlot cast usingIQfiles state rcvr buffer cursor).payload =
      OverlayWrites.overlay
        (slotPatch cast usingIQfiles state rcvr buffer (frameRcvrs state)
          cursor.b cursor.i)
        cursor.payload :=
  (foldl_packColumn cast usingIQfiles state rcvr buffer
    cursor (Nat.le_refl _)).2

/-- The bytes that `slots` slots from `base` store, starting with sample index `i`. -/
def bankPatch
    (slots base i position : Nat) :
    Option UInt8 :=
  let stride := slotStride (frameRcvrs state)
  if base ≤ position ∧ position < base + slots * stride then
    slotCell cast usingIQfiles state rcvr buffer (frameRcvrs state)
      (i + (position - base) / stride * slotAdvance state rcvr)
      ((position - base) % stride)
  else
    none

/-- A bank that ends after a whole number of slots is filled by as many slots. -/
theorem packBank_of_slots
    (slots : Nat)
    (cursor : PacketCursor) :
    let filled :=
      packBank cast usingIQfiles state rcvr buffer
        (cursor.b + slots * slotStride (frameRcvrs state)) cursor
    filled.i = cursor.i + slots * slotAdvance state rcvr ∧
      filled.payload =
        OverlayWrites.overlay
          (bankPatch cast usingIQfiles state rcvr buffer slots
            cursor.b cursor.i)
          cursor.payload := by
  have stridePos : 0 < slotStride (frameRcvrs state) := by
    simp [slotStride]
  induction slots generalizing cursor with
  | zero =>
      rw [packBank, if_neg (by simp)]
      refine ⟨by simp, ?_⟩
      funext position
      have outside :
          ¬ (cursor.b ≤ position ∧
            position < cursor.b + 0 * slotStride (frameRcvrs state)) := by
        omega
      simp only [OverlayWrites.overlay, bankPatch, if_neg outside]
      rfl
  | succ slots inductionHypothesis =>
      generalize strideIs : slotStride (frameRcvrs state) = stride
        at inductionHypothesis stridePos ⊢
      have oneMore : (slots + 1) * stride = slots * stride + stride :=
        Nat.succ_mul slots stride
      have bankEnd :
          cursor.b + (slots + 1) * stride =
            cursor.b + stride + slots * stride := by
        omega
      have rest := inductionHypothesis
        (packSlot cast usingIQfiles state rcvr buffer cursor)
      rw [packSlot_b, packSlot_i, packSlot_payload, strideIs] at rest
      rw [packBank, if_pos (by rw [bankEnd]; omega), bankEnd]
      refine ⟨?_, ?_⟩
      · rw [rest.1, Nat.add_mul, Nat.one_mul]
        omega
      · rw [rest.2]
        funext position
        simp only [OverlayWrites.overlay, bankPatch, slotPatch, strideIs,
          oneMore]
        by_cases first :
            cursor.b ≤ position ∧ position < cursor.b + stride
        · have quotient : (position - cursor.b) / stride = 0 :=
            Nat.div_eq_of_lt (by omega)
          have remainder :
              (position - cursor.b) % stride = position - cursor.b :=
            Nat.mod_eq_of_lt (by omega)
          rw [if_neg (by omega), if_pos first.1,
            if_pos ⟨first.1, by omega⟩, quotient, remainder]
          simp
        · have firstSlotSilent :
              cursor.b ≤ position →
              slotCell cast usingIQfiles state rcvr buffer
                (frameRcvrs state) cursor.i (position - cursor.b) =
                  none := by
            intro above
            apply if_neg
            rintro ⟨below, _⟩
            unfold slotStride at strideIs
            omega
          by_cases later :
              cursor.b + stride ≤ position ∧
                position < cursor.b + stride + slots * stride
          · have shift :
                position - cursor.b =
                  (position - (cursor.b + stride)) + stride := by
              omega
            have quotient :
                (position - cursor.b) / stride =
                  (position - (cursor.b + stride)) / stride + 1 := by
              rw [shift, Nat.add_div_right _ stridePos]
            have remainder :
                (position - cursor.b) % stride =
                  (position - (cursor.b + stride)) % stride := by
              rw [shift, Nat.add_mod_right]
            rw [if_pos later, if_pos (by omega), if_pos (by omega),
              firstSlotSilent (by omega), quotient, remainder]
            congr 2
            rw [Nat.add_mul, Nat.one_mul]
            omega
          · rw [if_neg later]
            by_cases above : cursor.b ≤ position
            · rw [if_pos above, firstSlotSilent above, if_neg (by omega)]
              rfl
            · rw [if_neg above, if_neg (fun both => above both.1)]
              rfl

end Cursor

end LibRtlSdr.Hpsdr
