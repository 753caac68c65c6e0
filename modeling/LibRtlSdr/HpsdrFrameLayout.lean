import LibRtlSdr.HpsdrEp2Requests
import LibRtlSdr.HpsdrLoadPacket

namespace LibRtlSdr.Hpsdr

/-!
# The layout of a frame and what the receivers put into it

A frame of `n` receivers has two banks, from byte 16 and from byte 528.  A bank
is a row of time slots; a slot holds six bytes for each receiver and two
microphone bytes.  The three tables of the program are this layout, worked out
by hand for each count.

With the configuration that `process_ep2` installs, a call of `load_packet` is
one patch of the payload, given slot by slot.  The patches of different
receivers touch different bytes, so the order in which the active receivers
call does not matter, and a frame decodes to their samples.
-/

/-- The time slots that fit into a bank of a frame of `count` receivers. -/
def slotsPerBank (count : Nat) : Nat :=
  504 / slotStride count

/-- The first byte of time slot `slot`, counted through both banks. -/
def slotStart (count slot : Nat) : Nat :=
  if slot < slotsPerBank count then
    16 + slot * slotStride count
  else
    528 + (slot - slotsPerBank count) * slotStride count

/-- The 16-bit value that the layout has in slot `slot` of channel `channel`. -/
def decodeValue
    (count : Nat)
    (payload : Payload)
    (slot channel component : Nat) :
    BitVec 16 :=
  let first := slotStart count slot + (6 * channel + 3 * component)
  (payload first).toBitVec ++ (payload (first + 1)).toBitVec

/-- The real receiver whose samples fill a column: copies repeat the last one. -/
def columnOwner (state : Ep2State) (column : Nat) : Nat :=
  min column (state.activeNumRcvrs - 1)

/-! ## The tables are the layout -/

theorem slotStride_pos (count : Nat) : 0 < slotStride count := by
  simp [slotStride]

/-- A bank has 504 bytes. -/
theorem slotsPerBank_mul_le (count : Nat) :
    slotsPerBank count * slotStride count ≤ 504 :=
  Nat.div_mul_le_self 504 (slotStride count)

theorem frameOffset1_eq :
    ∀ row < 8,
      frameOffset1 row =
        16 + slotsPerBank (row + 1) * slotStride (row + 1) := by
  decide

theorem frameOffset2_eq :
    ∀ row < 8,
      frameOffset2 row =
        528 + slotsPerBank (row + 1) * slotStride (row + 1) := by
  decide

theorem nsampsPacket_eq :
    ∀ row < 8, nsampsPacket row = 2 * slotsPerBank (row + 1) := by
  decide

namespace Installed

variable
  {total : RcvrTotal}
  {request : ConfigRequest}
  {state : Ep2State}

theorem active_pos
    (installed : Installed total request state) :
    0 < state.activeNumRcvrs := by
  have active := installed.active
  have requestPos := request.numRcvrs_pos
  have totalPos := total.pos
  omega

theorem active_le_total
    (installed : Installed total request state) :
    state.activeNumRcvrs ≤ total.count := by
  have active := installed.active
  omega

/-- The frame carries as many receivers as were asked for. -/
theorem frameRcvrs_eq
    (installed : Installed total request state) :
    frameRcvrs state = request.numRcvrs :=
  installed.active_add_copies

/-- Copies are made only when every real receiver is active. -/
theorem active_eq_total_of_copies
    (installed : Installed total request state)
    (copies : 0 < state.numCopyRcvrs) :
    state.activeNumRcvrs = total.count := by
  have active := installed.active
  have count := installed.copies
  omega

theorem copyTotal_eq
    (installed : Installed total request state) :
    copyTotal state = frameRcvrs state - 1 := by
  have pos := installed.active_pos
  unfold copyTotal frameRcvrs
  omega

theorem row_lt
    (installed : Installed total request state) :
    frameRcvrs state - 1 < 8 ∧
      frameRcvrs state - 1 + 1 = frameRcvrs state := by
  have count := installed.frameRcvrs_eq
  have requestPos := request.numRcvrs_pos
  have requestLe := request.numRcvrs_le
  omega

/-- Without copies the cached table row is that of the frame. -/
theorem active_eq_frameRcvrs
    (noCopies : ¬ 0 < state.numCopyRcvrs) :
    state.activeNumRcvrs = frameRcvrs state := by
  unfold frameRcvrs
  omega

/-- The lower bank ends after a whole number of slots. -/
theorem bankEnd1_eq
    (installed : Installed total request state) :
    bankEnd1 state =
      16 + slotsPerBank (frameRcvrs state) *
        slotStride (frameRcvrs state) := by
  obtain ⟨rowLt, rowSucc⟩ := installed.row_lt
  have fromTable := frameOffset1_eq _ rowLt
  rw [rowSucc] at fromTable
  unfold bankEnd1
  split_ifs with copies
  · rw [installed.copyTotal_eq, fromTable]
  · rw [installed.offset1, active_eq_frameRcvrs copies, fromTable]

/-- The upper bank ends after as many slots. -/
theorem bankEnd2_eq
    (installed : Installed total request state) :
    bankEnd2 state =
      528 + slotsPerBank (frameRcvrs state) *
        slotStride (frameRcvrs state) := by
  obtain ⟨rowLt, rowSucc⟩ := installed.row_lt
  have fromTable := frameOffset2_eq _ rowLt
  rw [rowSucc] at fromTable
  unfold bankEnd2
  split_ifs with copies
  · rw [installed.copyTotal_eq, fromTable]
  · rw [installed.offset2, active_eq_frameRcvrs copies, fromTable]

/-- A real receiver stores the columns it owns, and no others. -/
theorem stores_iff
    (installed : Installed total request state)
    {rcvr column : Nat}
    (real : rcvr < total.count)
    (inFrame : column < frameRcvrs state) :
    Stores state rcvr column ↔ columnOwner state column = rcvr := by
  have pos := installed.active_pos
  have count := installed.frameRcvrs_eq
  unfold Stores DoCopy columnOwner
  by_cases copies : 0 < state.numCopyRcvrs
  · have allActive := installed.active_eq_total_of_copies copies
    by_cases copied : state.activeNumRcvrs ≤ column
    · have marked := installed.copied column copied (by omega)
      simp only [marked, copies, true_and, and_true]
      omega
    · have unmarked := installed.real column (by omega)
      simp only [unmarked, and_false, or_false]
      omega
  · have noCopies : frameRcvrs state = state.activeNumRcvrs :=
      (active_eq_frameRcvrs copies).symm
    simp only [copies, false_and, or_false]
    omega

/-- An active receiver takes the next sample with each slot. -/
theorem slotAdvance_of_active
    (installed : Installed total request state)
    {rcvr : Nat}
    (active : rcvr < state.activeNumRcvrs) :
    slotAdvance state rcvr = 2 := by
  have real : rcvr < total.count :=
    Nat.lt_of_lt_of_le active installed.active_le_total
  have lastInFrame :
      lastColumn state rcvr < frameRcvrs state ∧
        columnOwner state (lastColumn state rcvr) = rcvr := by
    have copyTotalIs := installed.copyTotal_eq
    have count : frameRcvrs state =
        state.activeNumRcvrs + state.numCopyRcvrs := rfl
    unfold lastColumn columnOwner
    split_ifs with copies
    · have lastReal := copies.2
      omega
    · omega
  exact if_pos
    ⟨(installed.stores_iff real lastInFrame.1).mpr lastInFrame.2,
      lastInFrame.1⟩

/-- A receiver that is switched off stores nothing and stays at its sample. -/
theorem not_stores_of_inactive
    (installed : Installed total request state)
    {rcvr column : Nat}
    (inactive : state.activeNumRcvrs ≤ rcvr)
    (real : rcvr < total.count)
    (inFrame : column < frameRcvrs state) :
    ¬ Stores state rcvr column := by
  have pos := installed.active_pos
  rw [installed.stores_iff real inFrame, columnOwner]
  omega

theorem slotAdvance_of_inactive
    (installed : Installed total request state)
    {rcvr : Nat}
    (inactive : state.activeNumRcvrs ≤ rcvr)
    (real : rcvr < total.count) :
    slotAdvance state rcvr = 0 :=
  if_neg (fun both =>
    installed.not_stores_of_inactive inactive real both.2 both.1)

end Installed

/-! ## A call of `load_packet` -/

section Packet

variable
  {Sample : Type}
  (cast : SampleCast Sample)
  (usingIQfiles : Bool)
  (state : Ep2State)
  (rcvr : Nat)
  (buffer : IqBuffer Sample)

/-- The bytes that one call stores, in both banks. -/
def packetPatch (position : Nat) : Option UInt8 :=
  let slots := slotsPerBank (frameRcvrs state)
  (bankPatch cast usingIQfiles state rcvr buffer slots 528
      (slots * slotAdvance state rcvr) position).or
    (bankPatch cast usingIQfiles state rcvr buffer slots 16 0 position)

/-- Byte `within` of one slot of a bank. -/
theorem bankPatch_slot
    {slots slot within : Nat}
    (inBank : slot < slots)
    (inSlot : within < slotStride (frameRcvrs state))
    (base i : Nat) :
    bankPatch cast usingIQfiles state rcvr buffer slots base i
        (base + (slot * slotStride (frameRcvrs state) + within)) =
      slotCell cast usingIQfiles state rcvr buffer (frameRcvrs state)
        (i + slot * slotAdvance state rcvr) within := by
  have stridePos := slotStride_pos (frameRcvrs state)
  simp only [bankPatch]
  generalize slotStride (frameRcvrs state) = stride at inSlot stridePos
  have below : slot * stride + within < slots * stride := by
    have next := Nat.mul_le_mul_right stride (Nat.succ_le_of_lt inBank)
    rw [Nat.succ_mul] at next
    omega
  have quotient : (slot * stride + within) / stride = slot := by
    rw [Nat.mul_comm, Nat.mul_add_div stridePos,
      Nat.div_eq_of_lt inSlot, Nat.add_zero]
  have remainder : (slot * stride + within) % stride = within := by
    rw [Nat.mul_comm, Nat.mul_add_mod, Nat.mod_eq_of_lt inSlot]
  rw [if_pos ⟨Nat.le_add_right _ _, Nat.add_lt_add_left below base⟩,
    Nat.add_sub_cancel_left, quotient, remainder]

/-- A bank stores nothing outside itself. -/
theorem bankPatch_of_outside
    {slots base position : Nat}
    (outside :
      position < base ∨
        base + slots * slotStride (frameRcvrs state) ≤ position)
    (i : Nat) :
    bankPatch cast usingIQfiles state rcvr buffer slots base i position =
      none := by
  apply if_neg
  omega

/-- Byte `within` of time slot `slot`, as the call stores it. -/
theorem packetPatch_slot
    {slot within : Nat}
    (inFrame : slot < 2 * slotsPerBank (frameRcvrs state))
    (inSlot : within < slotStride (frameRcvrs state)) :
    packetPatch cast usingIQfiles state rcvr buffer
        (slotStart (frameRcvrs state) slot + within) =
      slotCell cast usingIQfiles state rcvr buffer (frameRcvrs state)
        (slot * slotAdvance state rcvr) within := by
  have bankSize := slotsPerBank_mul_le (frameRcvrs state)
  simp only [packetPatch, slotStart]
  by_cases lower : slot < slotsPerBank (frameRcvrs state)
  · have next := Nat.mul_le_mul_right (slotStride (frameRcvrs state))
      (Nat.succ_le_of_lt lower)
    rw [Nat.succ_mul] at next
    rw [if_pos lower, bankPatch_of_outside _ _ _ _ _ (by omega),
      Nat.add_assoc, bankPatch_slot _ _ _ _ _ lower inSlot,
      Option.none_or, Nat.zero_add]
  · have upper :
        slot - slotsPerBank (frameRcvrs state) <
          slotsPerBank (frameRcvrs state) := by
      omega
    have advanced :
        slotsPerBank (frameRcvrs state) * slotAdvance state rcvr +
            (slot - slotsPerBank (frameRcvrs state)) *
              slotAdvance state rcvr =
          slot * slotAdvance state rcvr := by
      rw [← Nat.add_mul]
      congr 1
      omega
    rw [if_neg lower, Nat.add_assoc,
      bankPatch_slot _ _ _ _ _ upper inSlot,
      bankPatch_of_outside _ _ _ _ _ (by omega), advanced,
      Option.or_none]

/-- Nothing is stored outside the two banks. -/
theorem packetPatch_of_outside
    {position : Nat}
    (outside :
      position < 16 ∨ (520 ≤ position ∧ position < 528) ∨
        hpsdrFrameLen ≤ position) :
    packetPatch cast usingIQfiles state rcvr buffer position = none := by
  have bankSize := slotsPerBank_mul_le (frameRcvrs state)
  have frameLen : hpsdrFrameLen = 1032 := rfl
  simp only [packetPatch]
  rw [bankPatch_of_outside _ _ _ _ _ (by omega),
    bankPatch_of_outside _ _ _ _ _ (by omega), Option.or_none]

variable
  {cast usingIQfiles state rcvr buffer}
  {total : RcvrTotal}
  {request : ConfigRequest}

/-- A receiver that is switched off has an empty patch. -/
theorem Installed.packetPatch_of_inactive
    (installed : Installed total request state)
    (inactive : state.activeNumRcvrs ≤ rcvr)
    (real : rcvr < total.count)
    (position : Nat) :
    packetPatch cast usingIQfiles state rcvr buffer position = none := by
  have noCell (i within : Nat) :
      slotCell cast usingIQfiles state rcvr buffer (frameRcvrs state) i
        within = none := by
    apply if_neg
    rintro ⟨below, stores⟩
    exact installed.not_stores_of_inactive inactive real
      (Nat.div_lt_of_lt_mul below) stores
  simp [packetPatch, bankPatch, noCell]

/-- The first bank: from byte 16 up to `offset1`, starting with sample zero. -/
theorem Installed.packHalf_lower
    (installed : Installed total request state)
    (payload : Payload) :
    packHalf cast usingIQfiles state rcvr buffer
        { b := 16, i := 0, payload := payload } =
      { b := 528
        i :=
          slotsPerBank (frameRcvrs state) * slotAdvance state rcvr
        payload :=
          OverlayWrites.overlay
            (bankPatch cast usingIQfiles state rcvr buffer
              (slotsPerBank (frameRcvrs state)) 16 0)
            payload } := by
  have bank := packBank_of_slots cast usingIQfiles state rcvr buffer
    (slotsPerBank (frameRcvrs state))
    { b := 16, i := 0, payload := payload }
  simp only [← installed.bankEnd1_eq, Nat.zero_add] at bank
  simp only [packHalf, if_true, bank.1, bank.2]

/-- The second bank: from byte 528 up to `offset2`, once samples are used. -/
theorem Installed.packHalf_upper
    (installed : Installed total request state)
    {i : Nat}
    (used : i ≠ 0)
    (payload : Payload) :
    packHalf cast usingIQfiles state rcvr buffer
        { b := 528, i := i, payload := payload } =
      { b := 528
        i :=
          i + slotsPerBank (frameRcvrs state) * slotAdvance state rcvr
        payload :=
          OverlayWrites.overlay
            (bankPatch cast usingIQfiles state rcvr buffer
              (slotsPerBank (frameRcvrs state)) 528 i)
            payload } := by
  have bank := packBank_of_slots cast usingIQfiles state rcvr buffer
    (slotsPerBank (frameRcvrs state))
    { b := 528, i := i, payload := payload }
  simp only [← installed.bankEnd2_eq] at bank
  simp only [packHalf, if_neg used, bank.1, bank.2]

/-- Every bank has slots. -/
theorem Installed.slotsPerBank_pos
    (installed : Installed total request state) :
    0 < slotsPerBank (frameRcvrs state) := by
  obtain ⟨rowLt, rowSucc⟩ := installed.row_lt
  have everyRow : ∀ row < 8, 0 < slotsPerBank (row + 1) := by
    decide
  rw [← rowSucc]
  exact everyRow _ rowLt

/-- An active receiver goes through both banks. -/
theorem Installed.loadPacket_of_active
    (installed : Installed total request state)
    (active : rcvr < state.activeNumRcvrs)
    (payload : Payload) :
    loadPacket cast usingIQfiles state rcvr buffer payload =
      { b := 528
        i := 2 * nsampsPacket (frameRcvrs state - 1)
        payload :=
          OverlayWrites.overlay
            (packetPatch cast usingIQfiles state rcvr buffer) payload } := by
  obtain ⟨rowLt, rowSucc⟩ := installed.row_lt
  have samples := nsampsPacket_eq _ rowLt
  rw [rowSucc] at samples
  have slotsPos := installed.slotsPerBank_pos
  have advance := installed.slotAdvance_of_active active
  unfold loadPacket
  rw [installed.packHalf_lower, advance,
    installed.packHalf_upper (by omega), advance, samples]
  simp only [PacketCursor.mk.injEq, true_and]
  refine ⟨by omega, ?_⟩
  funext position
  simp only [OverlayWrites.overlay, packetPatch, advance]
  cases bankPatch cast usingIQfiles state rcvr buffer
      (slotsPerBank (frameRcvrs state)) 528
      (slotsPerBank (frameRcvrs state) * 2) position <;> rfl

/-- A receiver that is switched off leaves the payload alone. -/
theorem Installed.loadPacket_of_inactive
    (installed : Installed total request state)
    (inactive : state.activeNumRcvrs ≤ rcvr)
    (real : rcvr < total.count)
    (payload : Payload) :
    (loadPacket cast usingIQfiles state rcvr buffer payload).payload =
      payload := by
  have bankSize := slotsPerBank_mul_le (frameRcvrs state)
  have advance := installed.slotAdvance_of_inactive inactive real
  -- The sample index stays zero, so the upper bank is cut at `offset1`.
  have stopped : ¬ 528 < bankEnd1 state := by
    rw [installed.bankEnd1_eq]
    omega
  unfold loadPacket
  rw [installed.packHalf_lower, advance, packHalf]
  simp only [Nat.mul_zero, if_true]
  rw [packBank, if_neg stopped]
  funext position
  have silent :
      packetPatch cast usingIQfiles state rcvr buffer position = none :=
    installed.packetPatch_of_inactive inactive real position
  exact OverlayWrites.overlay_of_none (Option.or_eq_none_iff.mp silent).2

/-- One call of `load_packet` is one patch of the payload. -/
theorem Installed.loadPacket_payload
    (installed : Installed total request state)
    (real : rcvr < total.count)
    (payload : Payload) :
    (loadPacket cast usingIQfiles state rcvr buffer payload).payload =
      OverlayWrites.overlay
        (packetPatch cast usingIQfiles state rcvr buffer) payload := by
  by_cases inactive : state.activeNumRcvrs ≤ rcvr
  · rw [installed.loadPacket_of_inactive inactive real]
    funext position
    exact (OverlayWrites.overlay_of_none
      (installed.packetPatch_of_inactive inactive real position)).symm
  · rw [installed.loadPacket_of_active (Nat.lt_of_not_le inactive)]

/-- The column of a slot that a position of the payload belongs to. -/
def columnAt (count position : Nat) : Nat :=
  if position < 528 then
    (position - 16) % slotStride count / 6
  else
    (position - 528) % slotStride count / 6

/-- A byte that is stored belongs to a column that is stored. -/
theorem stores_of_slotCell
    {count i within : Nat}
    (stored :
      slotCell cast usingIQfiles state rcvr buffer count i within ≠ none) :
    within / 6 < count ∧ Stores state rcvr (within / 6) := by
  have both :
      within < 6 * count ∧ Stores state rcvr (within / 6) := by
    by_contra neither
    exact stored (if_neg neither)
  exact ⟨Nat.div_lt_of_lt_mul both.1, both.2⟩

/-- A receiver stores a byte only in a column that it owns. -/
theorem Installed.owner_of_packetPatch
    (installed : Installed total request state)
    (real : rcvr < total.count)
    {position : Nat}
    (stored :
      packetPatch cast usingIQfiles state rcvr buffer position ≠ none) :
    columnOwner state (columnAt (frameRcvrs state) position) = rcvr := by
  have bankSize := slotsPerBank_mul_le (frameRcvrs state)
  have inBank :
      bankPatch cast usingIQfiles state rcvr buffer
          (slotsPerBank (frameRcvrs state)) 528
          (slotsPerBank (frameRcvrs state) * slotAdvance state rcvr)
          position ≠ none ∨
        bankPatch cast usingIQfiles state rcvr buffer
          (slotsPerBank (frameRcvrs state)) 16 0 position ≠ none := by
    rw [← not_and_or]
    exact fun both => stored (Option.or_eq_none_iff.mpr both)
  rcases inBank with upper | lower
  · have inside : 528 ≤ position := by
      by_contra below
      exact upper (bankPatch_of_outside _ _ _ _ _ (by omega) _)
    have cell := fun silent => upper (by
      unfold bankPatch
      exact ite_eq_right_iff.mpr fun _ => silent)
    obtain ⟨inFrame, stores⟩ := stores_of_slotCell cell
    rw [columnAt, if_neg (by omega)]
    exact (installed.stores_iff real inFrame).mp stores
  · have inside : position < 528 := by
      by_contra above
      exact lower (bankPatch_of_outside _ _ _ _ _ (by omega) _)
    have cell := fun silent => lower (by
      unfold bankPatch
      exact ite_eq_right_iff.mpr fun _ => silent)
    obtain ⟨inFrame, stores⟩ := stores_of_slotCell cell
    rw [columnAt, if_pos inside]
    exact (installed.stores_iff real inFrame).mp stores

/-- Two receivers never store the same byte. -/
theorem Installed.packetPatch_of_other
    (installed : Installed total request state)
    {other : Nat}
    {otherBuffer : IqBuffer Sample}
    (real : rcvr < total.count)
    (otherReal : other < total.count)
    (different : other ≠ rcvr)
    {position : Nat}
    (stored :
      packetPatch cast usingIQfiles state rcvr buffer position ≠ none) :
    packetPatch cast usingIQfiles state other otherBuffer position =
      none := by
  by_contra otherStored
  exact different
    ((installed.owner_of_packetPatch otherReal otherStored).symm.trans
      (installed.owner_of_packetPatch real stored))

/-- Only the samples of this packet are read. -/
theorem Installed.packetPatch_congr
    (installed : Installed total request state)
    (active : rcvr < state.activeNumRcvrs)
    {other : IqBuffer Sample}
    (sameSamples :
      ∀ i < 2 * nsampsPacket (frameRcvrs state - 1),
        buffer.outBuf i = other.outBuf i) :
    packetPatch cast usingIQfiles state rcvr buffer =
      packetPatch cast usingIQfiles state rcvr other := by
  obtain ⟨rowLt, rowSucc⟩ := installed.row_lt
  have samples := nsampsPacket_eq _ rowLt
  rw [rowSucc] at samples
  have advance := installed.slotAdvance_of_active active
  have sameBank
      (base first position : Nat)
      (early : first ≤ slotsPerBank (frameRcvrs state)) :
      bankPatch cast usingIQfiles state rcvr buffer
          (slotsPerBank (frameRcvrs state)) base (first * 2) position =
        bankPatch cast usingIQfiles state rcvr other
          (slotsPerBank (frameRcvrs state)) base (first * 2) position := by
    simp only [bankPatch, advance]
    split_ifs with inside
    · have slotLt :
          (position - base) / slotStride (frameRcvrs state) <
            slotsPerBank (frameRcvrs state) := by
        apply Nat.div_lt_of_lt_mul
        rw [Nat.mul_comm]
        omega
      unfold slotCell
      rw [sameSamples _ (by omega)]
    · rfl
  funext position
  simp only [packetPatch, advance]
  rw [sameBank 528 _ position (Nat.le_refl _)]
  have lower := sameBank 16 0 position (Nat.zero_le _)
  rw [Nat.zero_mul] at lower
  rw [lower]

/-! ## A frame -/

/-- The two bytes of a live sample, put together again. -/
theorem highByte_append_lowByte (value : BitVec 16) :
    (value.sshiftRight 8).setWidth 8 ++ (value &&& 0xff).setWidth 8 =
      value := by
  have maskBits : ∀ bit < 8, (0xff : BitVec 16).getLsbD bit = true := by
    decide
  apply BitVec.eq_of_getLsbD_eq
  intro bit below
  rw [BitVec.getLsbD_append]
  by_cases low : bit < 8
  · rw [if_pos low, BitVec.getLsbD_setWidth, BitVec.getLsbD_and,
      maskBits bit low]
    simp [low]
  · have restored : 8 + (bit - 8) = bit := by omega
    have inWord : bit < 16 := below
    have inByte : bit - 8 < 8 := by omega
    rw [if_neg low, BitVec.getLsbD_setWidth, BitVec.getLsbD_sshiftRight,
      restored]
    simp [inWord, inByte]
    intro _
    omega

/-- The columns that a receiver owns hold its samples, byte by byte. -/
theorem Installed.packetPatch_column
    (installed : Installed total request state)
    (active : rcvr < state.activeNumRcvrs)
    {slot column component k : Nat}
    (inFrame : slot < 2 * slotsPerBank (frameRcvrs state))
    (inSlot : column < frameRcvrs state)
    (owner : columnOwner state column = rcvr)
    (isComponent : component < 2)
    (isByte : k < 3) :
    packetPatch cast usingIQfiles state rcvr buffer
        (slotStart (frameRcvrs state) slot +
          (6 * column + 3 * component + k)) =
      componentByte cast usingIQfiles
        (buffer.outBuf (2 * slot + component)) k := by
  have real : rcvr < total.count :=
    Nat.lt_of_lt_of_le active installed.active_le_total
  have columnIs : (6 * column + 3 * component + k) / 6 = column := by
    omega
  have componentIs :
      (6 * column + 3 * component + k) % 6 / 3 = component := by
    omega
  have byteIs : (6 * column + 3 * component + k) % 3 = k := by
    omega
  have sampleIs : slot * 2 + component = 2 * slot + component := by
    omega
  have inStride :
      6 * column + 3 * component + k < slotStride (frameRcvrs state) := by
    unfold slotStride
    omega
  rw [packetPatch_slot _ _ _ _ _ inFrame inStride,
    installed.slotAdvance_of_active active, slotCell, columnIs,
    componentIs, byteIs, sampleIs,
    if_pos ⟨by omega, (installed.stores_iff real inSlot).mpr owner⟩]

/-- Both bytes of a live value are stored. -/
theorem componentByte_live_ne_none
    (sample : Sample)
    {k : Nat}
    (isStored : k < 2) :
    componentByte cast false sample k ≠ none := by
  have either : k = 0 ∨ k = 1 := by omega
  rcases either with first | second
  · subst first
    exact Option.some_ne_none _
  · subst second
    exact Option.some_ne_none _

/-- A live call puts its samples into the columns that the receiver owns. -/
theorem Installed.decodeValue_own
    (installed : Installed total request state)
    (active : rcvr < state.activeNumRcvrs)
    {slot column component : Nat}
    (inFrame : slot < 2 * slotsPerBank (frameRcvrs state))
    (inSlot : column < frameRcvrs state)
    (isComponent : component < 2)
    (owner : columnOwner state column = rcvr)
    (payload : Payload) :
    decodeValue (frameRcvrs state)
        (loadPacket cast false state rcvr buffer payload).payload
        slot column component =
      cast.toShort (buffer.outBuf (2 * slot + component)) := by
  have byte
      (k : Nat)
      (isByte : k < 3)
      (value : UInt8)
      (stored :
        componentByte cast false (buffer.outBuf (2 * slot + component)) k =
          some value) :
      (loadPacket cast false state rcvr buffer payload).payload
          (slotStart (frameRcvrs state) slot +
            (6 * column + 3 * component + k)) = value := by
    rw [installed.loadPacket_of_active active]
    apply OverlayWrites.overlay_of_some
    rw [installed.packetPatch_column active inFrame inSlot owner
      isComponent isByte, stored]
  have high := byte 0 (by decide) _ rfl
  have low := byte 1 (by decide) _ rfl
  rw [Nat.add_zero] at high
  rw [← Nat.add_assoc] at low
  rw [decodeValue, high, low]
  exact highByte_append_lowByte _

/-- A live call leaves the columns of the other receivers alone. -/
theorem Installed.decodeValue_other
    (installed : Installed total request state)
    (real : rcvr < total.count)
    {slot column component : Nat}
    (inFrame : slot < 2 * slotsPerBank (frameRcvrs state))
    (inSlot : column < frameRcvrs state)
    (isComponent : component < 2)
    (notOwner : rcvr ≠ columnOwner state column)
    (payload : Payload) :
    decodeValue (frameRcvrs state)
        (loadPacket cast false state rcvr buffer payload).payload
        slot column component =
      decodeValue (frameRcvrs state) payload slot column component := by
  have ownerActive : columnOwner state column < state.activeNumRcvrs := by
    have pos := installed.active_pos
    unfold columnOwner
    omega
  have byte
      (k : Nat)
      (isStored : k < 2) :
      (loadPacket cast false state rcvr buffer payload).payload
          (slotStart (frameRcvrs state) slot +
            (6 * column + 3 * component + k)) =
        payload
          (slotStart (frameRcvrs state) slot +
            (6 * column + 3 * component + k)) := by
    have ownerStores :
        packetPatch cast false state (columnOwner state column) buffer
          (slotStart (frameRcvrs state) slot +
            (6 * column + 3 * component + k)) ≠ none := by
      rw [installed.packetPatch_column ownerActive inFrame inSlot rfl
        isComponent (by omega)]
      exact componentByte_live_ne_none _ isStored
    rw [installed.loadPacket_payload real]
    exact OverlayWrites.overlay_of_none
      (installed.packetPatch_of_other
        (Nat.lt_of_lt_of_le ownerActive installed.active_le_total) real
        notOwner ownerStores)
  have high := byte 0 (by decide)
  have low := byte 1 (by decide)
  rw [Nat.add_zero] at high
  rw [← Nat.add_assoc] at low
  rw [decodeValue, high, low]
  rfl

end Packet

section Frame

variable
  {Sample : Type}
  (cast : SampleCast Sample)
  (state : Ep2State)
  (buffers : Nat → IqBuffer Sample)

/-- The payload after the listed receivers called `load_packet` in live mode. -/
def loadFrame (order : List Nat) (payload : Payload) : Payload :=
  order.foldl
    (fun current rcvr =>
      (loadPacket cast false state rcvr (buffers rcvr) current).payload)
    payload

/--
What a frame of `count` receivers has to be, filled by the active receivers in
any order: it decodes to their samples, the table of samples per packet counts
every slot of the layout, each receiver reads and uses up exactly that many
samples, no byte has two writers, and the headers are left alone.
-/
structure PacksFrame (count : Nat) : Prop where
  decodes :
    ∀ order payload,
      order.Perm (List.range state.activeNumRcvrs) →
      ∀ slot < nsampsPacket (count - 1), ∀ channel < count,
        ∀ component < 2,
          decodeValue count (loadFrame cast state buffers order payload)
              slot channel component =
            cast.toShort
              ((buffers (min channel (state.activeNumRcvrs - 1))).outBuf
                (2 * slot + component))
  everySlot :
    nsampsPacket (count - 1) = 2 * slotsPerBank count
  usesUp :
    ∀ rcvr < state.activeNumRcvrs, ∀ payload,
      (loadPacket cast false state rcvr (buffers rcvr) payload).i =
        2 * nsampsPacket (count - 1)
  readsOnly :
    ∀ rcvr < state.activeNumRcvrs, ∀ other : IqBuffer Sample,
      (∀ i < 2 * nsampsPacket (count - 1),
        (buffers rcvr).outBuf i = other.outBuf i) →
      ∀ payload,
        (loadPacket cast false state rcvr (buffers rcvr) payload).payload =
          (loadPacket cast false state rcvr other payload).payload
  disjoint :
    ∀ first < state.activeNumRcvrs, ∀ second < state.activeNumRcvrs,
      first ≠ second →
      ∀ position,
        (∀ payload,
          (loadPacket cast false state first (buffers first) payload).payload
            position = payload position) ∨
        (∀ payload,
          (loadPacket cast false state second (buffers second)
            payload).payload position = payload position)
  headersKept :
    ∀ rcvr < state.activeNumRcvrs, ∀ position,
      position < 16 ∨ (520 ≤ position ∧ position < 528) ∨
        hpsdrFrameLen ≤ position →
      ∀ payload,
        (loadPacket cast false state rcvr (buffers rcvr) payload).payload
          position = payload position

variable
  {cast state buffers}
  {total : RcvrTotal}
  {request : ConfigRequest}

/-- After a round, each column holds the sample of its owner. -/
theorem Installed.decodeValue_loadFrame
    (installed : Installed total request state)
    {order : List Nat}
    (everyActive : order.Perm (List.range state.activeNumRcvrs))
    (payload : Payload)
    {slot column component : Nat}
    (inFrame : slot < 2 * slotsPerBank (frameRcvrs state))
    (inSlot : column < frameRcvrs state)
    (isComponent : component < 2) :
    decodeValue (frameRcvrs state)
        (loadFrame cast state buffers order payload)
        slot column component =
      cast.toShort
        ((buffers (columnOwner state column)).outBuf
          (2 * slot + component)) := by
  have ownerActive : columnOwner state column < state.activeNumRcvrs := by
    have pos := installed.active_pos
    unfold columnOwner
    omega
  refine OverlayWrites.foldl_observe_of_owner
    (fun current =>
      decodeValue (frameRcvrs state) current slot column component)
    (everyActive.mem_iff.mpr (List.mem_range.mpr ownerActive)) ?_ ?_ payload
  · intro current
    exact installed.decodeValue_own ownerActive inFrame inSlot isComponent
      rfl current
  · intro writer member notOwner current
    have active : writer < state.activeNumRcvrs :=
      List.mem_range.mp (everyActive.mem_iff.mp member)
    exact installed.decodeValue_other
      (Nat.lt_of_lt_of_le active installed.active_le_total)
      inFrame inSlot isComponent notOwner current

/-- Every configuration of the program packs frames as the layout asks. -/
theorem Installed.packsFrame
    (installed : Installed total request state)
    (cast : SampleCast Sample)
    (buffers : Nat → IqBuffer Sample) :
    PacksFrame cast state buffers request.numRcvrs := by
  obtain ⟨rowLt, rowSucc⟩ := installed.row_lt
  have samples := nsampsPacket_eq _ rowLt
  rw [rowSucc] at samples
  have toTotal {rcvr : Nat} (active : rcvr < state.activeNumRcvrs) :
      rcvr < total.count :=
    Nat.lt_of_lt_of_le active installed.active_le_total
  rw [← installed.frameRcvrs_eq]
  exact {
    decodes := by
      intro order payload everyActive slot slotLt channel channelLt
        component componentLt
      exact installed.decodeValue_loadFrame everyActive payload
        (by omega) channelLt componentLt
    everySlot := samples
    usesUp := by
      intro rcvr active payload
      rw [installed.loadPacket_of_active active]
    readsOnly := by
      intro rcvr active other sameSamples payload
      rw [installed.loadPacket_of_active active,
        installed.loadPacket_of_active active,
        installed.packetPatch_congr active sameSamples]
    disjoint := by
      intro first firstActive second secondActive different position
      have unchanged
          {rcvr : Nat}
          (active : rcvr < state.activeNumRcvrs)
          (silent :
            packetPatch cast false state rcvr (buffers rcvr) position =
              none)
          (payload : Payload) :
          (loadPacket cast false state rcvr (buffers rcvr) payload).payload
            position = payload position := by
        rw [installed.loadPacket_payload (toTotal active)]
        exact OverlayWrites.overlay_of_none silent
      by_cases silent :
          packetPatch cast false state first (buffers first) position = none
      · exact Or.inl (unchanged firstActive silent)
      · exact Or.inr (unchanged secondActive
          (installed.packetPatch_of_other (toTotal firstActive)
            (toTotal secondActive) different.symm silent))
    headersKept := by
      intro rcvr active position outside payload
      rw [installed.loadPacket_payload (toTotal active)]
      exact OverlayWrites.overlay_of_none
        (packetPatch_of_outside _ _ _ _ _ outside)
  }

end Frame

/--
Live frames decode to the receivers' samples for every number of real receivers
and every supported request, in whatever order the active receivers call.
-/
theorem live_frame_packs
    {Sample : Type}
    (cast : SampleCast Sample)
    (total : RcvrTotal)
    (count : Nat)
    (packets : List Ep2Buffer)
    (state : Ep2State)
    (reached : runEp2 total .initial packets = some state)
    (requested : (heldRequest packets).numRcvrs = count)
    (buffers : Nat → IqBuffer Sample) :
    state.activeNumRcvrs = min count total.count ∧
      state.numCopyRcvrs = count - min count total.count ∧
      PacksFrame cast state buffers count := by
  have installed := (runEp2_coherent reached).installed
  have active := installed.active
  have copies := installed.copies
  rw [requested] at active copies
  refine ⟨active, by omega, ?_⟩
  rw [← requested]
  exact installed.packsFrame cast buffers

/-- A packet with one config frame, for `count` receivers at 48 kHz. -/
def countPacket (count : Nat) : Ep2Buffer :=
  fun position =>
    if position = 15 then
      UInt8.ofNat (8 * (count - 1))
    else if position = 523 then
      2
    else
      0

/-- Every count that the program supports can be asked for. -/
theorem countPacket_requests :
    ∀ count < 8, 0 < count →
      configRequests (countPacket count) =
          [.ofFrame (countPacket count) 0] ∧
        (ConfigRequest.ofFrame (countPacket count) 0).numRcvrs = count := by
  decide

theorem countPacket_supported
    {count : Nat}
    (pos : 0 < count)
    (leMax : count ≤ maxRcvrs) :
    Supported [countPacket count] := by
  obtain ⟨requests, asked⟩ :=
    countPacket_requests count (Nat.lt_succ_of_le leMax) pos
  intro buffer member request requested
  have only : buffer = countPacket count := List.mem_singleton.mp member
  rw [only, requests, List.mem_singleton] at requested
  rw [requested, asked]
  exact leMax

/-- Two dongles. -/
def twoRcvrs : RcvrTotal where
  count := 2
  pos := by decide
  leMax := by decide

/-- Samples that are whole numbers already. -/
def wholeSamples : SampleCast Int where
  toShort := BitVec.ofInt 16
  toInt := BitVec.ofInt 32

/-- Three receivers asked of two dongles: one copy, and the frame packs. -/
theorem live_frame_packs_one_copy :
    ∃ state,
      runEp2 twoRcvrs .initial [countPacket 3] = some state ∧
        state.activeNumRcvrs = 2 ∧
        state.numCopyRcvrs = 1 ∧
        PacksFrame wholeSamples state
          (fun rcvr => {
            iqSampleOffset := 0
            iqSamples := fun i => 1000 * rcvr + i })
          3 := by
  have supported : Supported [countPacket 3] :=
    countPacket_supported (by decide) (by decide)
  obtain ⟨state, reached⟩ := exists_runEp2 twoRcvrs supported
  exact ⟨state, reached,
    live_frame_packs wholeSamples twoRcvrs 3 _ state reached (by decide) _⟩

end LibRtlSdr.Hpsdr
