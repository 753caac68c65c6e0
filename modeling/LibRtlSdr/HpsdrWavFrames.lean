import LibRtlSdr.Binary32
import LibRtlSdr.HpsdrLiveFrames

namespace LibRtlSdr.Hpsdr

/-!
# Frames of a recording

With `using_IQfiles` the samples come from a file instead of a dongle.  The
reading thread moves each 16-bit word of a `.wav` file into the upper half of an
unsigned word and converts that to a float; `load_packet` converts the float to
an `int` and stores its three upper bytes, the lowest of them first.  The live
path stores a 16-bit value with its high byte first.  Both frames are compared
as the 24-bit big-endian values that the protocol has.
-/

/-! ## The reading thread -/

/-- `(IQ << 16) & 0xffff0000`, an unsigned word. -/
def wavWord (iq : BitVec 16) : BitVec 32 :=
  (iq.signExtend 32 <<< 16) &&& 0xffff0000

/-- The float that is stored for a word of the file. -/
def wavSample (iq : BitVec 16) : Int :=
  Binary32.ofNat (wavWord iq).toNat

/-- One turn of the loop: two words are read and stored as I and Q. -/
def readWavPair
    (file : Nat → BitVec 16)
    (iqBuf : Nat → Int)
    (k : Nat) :
    Nat → Int :=
  Function.update
    (Function.update iqBuf (2 * k) (wavSample (file (2 * k))))
    (2 * k + 1) (wavSample (file (2 * k + 1)))

/-- The samples stored by the first `pairs` turns. -/
def readWav
    (file : Nat → BitVec 16)
    (pairs : Nat)
    (iqBuf : Nat → Int) :
    Nat → Int :=
  (List.range pairs).foldl (readWavPair file) iqBuf

/-- A turn stores what it has read, in file order. -/
theorem readWav_apply
    (file : Nat → BitVec 16)
    {pairs i : Nat}
    (wasRead : i < 2 * pairs)
    (iqBuf : Nat → Int) :
    readWav file pairs iqBuf i = wavSample (file i) := by
  induction pairs with
  | zero =>
      omega
  | succ pairs inductionHypothesis =>
      rw [readWav, List.range_succ, List.foldl_append, List.foldl_cons,
        List.foldl_nil, ← readWav, readWavPair]
      by_cases isQ : i = 2 * pairs + 1
      · rw [isQ, Function.update_self]
      · rw [Function.update_of_ne isQ]
        by_cases isI : i = 2 * pairs
        · rw [isI, Function.update_self]
        · rw [Function.update_of_ne isI]
          exact inductionHypothesis (by omega)

/-- The word in the upper half of the unsigned word. -/
theorem wavWord_toNat (iq : BitVec 16) :
    (wavWord iq).toNat = iq.toNat * 2 ^ 16 := by
  have upper : wavWord iq = iq.setWidth 32 <<< 16 := by
    apply BitVec.eq_of_getLsbD_eq
    intro bit below
    have maskBit :
        ∀ bit < 32, (0xffff0000 : BitVec 32).getLsbD bit =
          decide (16 ≤ bit) := by
      decide
    rw [wavWord, BitVec.getLsbD_and, maskBit bit below,
      BitVec.getLsbD_shiftLeft, BitVec.getLsbD_shiftLeft]
    by_cases high : 16 ≤ bit
    · have inWord : bit - 16 < 16 := by omega
      rw [BitVec.getLsbD_signExtend, BitVec.getLsbD_setWidth]
      simp [high, inWord]
    · simp [high]
  have isWord : iq.toNat < 2 ^ 16 := iq.isLt
  rw [upper, BitVec.toNat_shiftLeft, BitVec.toNat_setWidth,
    Nat.shiftLeft_eq]
  omega

/-- The conversion to a float is exact: a word has 16 significant bits. -/
theorem wavSample_eq (iq : BitVec 16) :
    wavSample iq = iq.toNat * 2 ^ 16 := by
  have fits : iq.toNat < 2 ^ Binary32.significandBits :=
    Nat.lt_trans iq.isLt (by decide)
  rw [wavSample, wavWord_toNat, Binary32.ofNat_mul_two_pow fits]
  rfl

/-! ## The conversions of `load_packet` -/

/-- What the machine does with a float that the integer type cannot hold. -/
structure OutOfRange where
  toShort : Int → BitVec 16
  toInt : Int → BitVec 32

/-- The value is one of a 32-bit `int`. -/
def InIntRange (sample : Int) : Prop :=
  -2 ^ 31 ≤ sample ∧ sample < 2 ^ 31

instance (sample : Int) : Decidable (InIntRange sample) :=
  inferInstanceAs (Decidable (_ ∧ _))

/-- The C conversions of whole floats; out of range the standard says nothing. -/
def cConversion (outOfRange : OutOfRange) : SampleCast Int where
  toShort := fun sample =>
    if -2 ^ 15 ≤ sample ∧ sample < 2 ^ 15 then
      BitVec.ofInt 16 sample
    else
      outOfRange.toShort sample
  toInt := fun sample =>
    if InIntRange sample then
      BitVec.ofInt 32 sample
    else
      outOfRange.toInt sample

/-- The samples of the words from 0x8000 on do not fit into an `int`. -/
theorem inIntRange_wavSample_iff (iq : BitVec 16) :
    InIntRange (wavSample iq) ↔ iq.toNat < 2 ^ 15 := by
  rw [wavSample_eq, InIntRange]
  omega

/-! ## Three bytes as one value -/

/-- The value of three bytes, the first one the highest. -/
theorem toNat_threeBytes (high middle low : BitVec 8) :
    (high ++ middle ++ low).toNat =
      high.toNat * 2 ^ 16 + middle.toNat * 2 ^ 8 + low.toNat := by
  rw [BitVec.toNat_append, BitVec.toNat_append,
    ← Nat.shiftLeft_add_eq_or_of_lt middle.isLt,
    ← Nat.shiftLeft_add_eq_or_of_lt low.isLt,
    Nat.shiftLeft_eq, Nat.shiftLeft_eq]
  omega

/-- A byte that is masked out and shifted down is the byte shifted down. -/
theorem maskedByte
    (value : BitVec 32)
    {shift : Nat}
    {mask : BitVec 32}
    (isMask : ∀ bit < 8, mask.getLsbD (shift + bit) = true) :
    (((value &&& mask) >>> shift).setWidth 8).toNat =
      value.toNat / 2 ^ shift % 2 ^ 8 := by
  have unmasked :
      ((value &&& mask) >>> shift).setWidth 8 =
        (value >>> shift).setWidth 8 := by
    apply BitVec.eq_of_getLsbD_eq
    intro bit below
    simp [below, isMask bit below]
  rw [unmasked, BitVec.toNat_setWidth, BitVec.toNat_ushiftRight,
    Nat.shiftRight_eq_div_pow]

/-- The high byte of a live value. -/
theorem liveHighByte (value : BitVec 16) :
    ((value.sshiftRight 8).setWidth 8).toNat = value.toNat / 2 ^ 8 := by
  have unsigned :
      (value.sshiftRight 8).setWidth 8 = (value >>> 8).setWidth 8 := by
    apply BitVec.eq_of_getLsbD_eq
    intro bit below
    have inWord : 8 + bit < 16 := by omega
    rw [BitVec.getLsbD_setWidth, BitVec.getLsbD_setWidth,
      BitVec.getLsbD_sshiftRight]
    have notAbove : ¬ 16 ≤ bit := by omega
    simp [inWord, notAbove]
  have isWord : value.toNat < 2 ^ 16 := value.isLt
  rw [unsigned, BitVec.toNat_setWidth, BitVec.toNat_ushiftRight,
    Nat.shiftRight_eq_div_pow]
  omega

/-- The low byte of a live value. -/
theorem liveLowByte (value : BitVec 16) :
    ((value &&& 0xff).setWidth 8).toNat = value.toNat % 2 ^ 8 := by
  have unmasked : (value &&& 0xff).setWidth 8 = value.setWidth 8 := by
    have isMask : ∀ bit < 8, (0xff : BitVec 16).getLsbD bit = true := by
      decide
    apply BitVec.eq_of_getLsbD_eq
    intro bit below
    rw [BitVec.getLsbD_setWidth, BitVec.getLsbD_and, isMask bit below,
      BitVec.getLsbD_setWidth, Bool.and_true]
  rw [unmasked, BitVec.toNat_setWidth]

/-- The bytes that one component of a slot receives, and zero where none is stored. -/
def componentBytes
    (cast : SampleCast Int)
    (usingIQfiles : Bool)
    (sample : Int) :
    BitVec 24 :=
  let byte := fun k => (componentByte cast usingIQfiles sample k).getD 0
  (byte 0).toBitVec ++ (byte 1).toBitVec ++ (byte 2).toBitVec

theorem componentBytes_toNat
    (cast : SampleCast Int)
    (usingIQfiles : Bool)
    (sample : Int) :
    (componentBytes cast usingIQfiles sample).toNat =
      ((componentByte cast usingIQfiles sample 0).getD 0).toNat * 2 ^ 16 +
        ((componentByte cast usingIQfiles sample 1).getD 0).toNat * 2 ^ 8 +
        ((componentByte cast usingIQfiles sample 2).getD 0).toNat :=
  toNat_threeBytes _ _ _

/-- The live path sends 256 times the value. -/
theorem live_componentBytes
    (outOfRange : OutOfRange)
    (iq : BitVec 16) :
    (componentBytes (cConversion outOfRange) false iq.toInt).toNat =
      256 * iq.toNat := by
  have short : (cConversion outOfRange).toShort iq.toInt = iq := by
    have atLeast := BitVec.le_toInt iq
    have below := BitVec.toInt_lt (x := iq)
    simp only [cConversion]
    rw [if_pos ⟨by simpa using atLeast, by simpa using below⟩,
      BitVec.ofInt_toInt]
  have high :
      ((componentByte (cConversion outOfRange) false iq.toInt 0).getD
        0).toNat = iq.toNat / 2 ^ 8 := by
    simp only [componentByte, short]
    exact liveHighByte iq
  have low :
      ((componentByte (cConversion outOfRange) false iq.toInt 1).getD
        0).toNat = iq.toNat % 2 ^ 8 := by
    simp only [componentByte, short]
    exact liveLowByte iq
  have none :
      ((componentByte (cConversion outOfRange) false iq.toInt 2).getD
        0).toNat = 0 :=
    rfl
  rw [componentBytes_toNat, high, low, none]
  omega

/-- Read as a signed value, that is 256 times the signed value. -/
theorem live_componentBytes_toInt
    (outOfRange : OutOfRange)
    (iq : BitVec 16) :
    (componentBytes (cConversion outOfRange) false iq.toInt).toInt =
      256 * iq.toInt := by
  have bytes := live_componentBytes outOfRange iq
  rw [BitVec.toInt_eq_toNat_cond, bytes, BitVec.toInt_eq_toNat_cond]
  split_ifs <;> omega

/-- The path for recordings sends a zero byte, the low byte and the high byte. -/
theorem wav_componentBytes
    (outOfRange : OutOfRange)
    {iq : BitVec 16}
    (inRange : InIntRange (wavSample iq)) :
    (componentBytes (cConversion outOfRange) true (wavSample iq)).toNat =
      iq.toNat % 2 ^ 8 * 2 ^ 8 + iq.toNat / 2 ^ 8 := by
  have small := (inIntRange_wavSample_iff iq).mp inRange
  have value :
      ((cConversion outOfRange).toInt (wavSample iq)).toNat =
        iq.toNat * 2 ^ 16 := by
    simp only [cConversion]
    rw [if_pos inRange, wavSample_eq]
    show (BitVec.ofInt 32 ((iq.toNat * 2 ^ 16 : Nat) : Int)).toNat = _
    rw [BitVec.ofInt_natCast, BitVec.toNat_ofNat]
    omega
  have byte
      (shift : Nat)
      (mask : BitVec 32)
      (isMask : ∀ bit < 8, mask.getLsbD (shift + bit) = true) :
      ((((cConversion outOfRange).toInt (wavSample iq) &&& mask) >>>
          shift).setWidth 8).toNat =
        iq.toNat * 2 ^ 16 / 2 ^ shift % 2 ^ 8 := by
    rw [maskedByte _ isMask, value]
  have first :
      ((componentByte (cConversion outOfRange) true (wavSample iq) 0).getD
        0).toNat = iq.toNat * 2 ^ 16 / 2 ^ 8 % 2 ^ 8 :=
    byte 8 0xff00 (by decide)
  have second :
      ((componentByte (cConversion outOfRange) true (wavSample iq) 1).getD
        0).toNat = iq.toNat * 2 ^ 16 / 2 ^ 16 % 2 ^ 8 :=
    byte 16 0xff0000 (by decide)
  have third :
      ((componentByte (cConversion outOfRange) true (wavSample iq) 2).getD
        0).toNat = iq.toNat * 2 ^ 16 / 2 ^ 24 % 2 ^ 8 :=
    byte 24 0xff000000 (by decide)
  rw [componentBytes_toNat, first, second, third]
  omega

/-- The two paths send the same bytes for the values 0 to 255 only. -/
theorem componentBytes_eq_iff
    (outOfRange : OutOfRange)
    (iq : BitVec 16) :
    InIntRange (wavSample iq) ∧
        componentBytes (cConversion outOfRange) true (wavSample iq) =
          componentBytes (cConversion outOfRange) false iq.toInt ↔
      iq.toNat < 2 ^ 8 := by
  have isWord : iq.toNat < 2 ^ 16 := iq.isLt
  constructor
  · rintro ⟨inRange, same⟩
    have sameValue := congrArg BitVec.toNat same
    rw [wav_componentBytes outOfRange inRange,
      live_componentBytes] at sameValue
    omega
  · intro small
    have inRange : InIntRange (wavSample iq) :=
      (inIntRange_wavSample_iff iq).mpr (by omega)
    refine ⟨inRange, BitVec.eq_of_toNat_eq ?_⟩
    rw [wav_componentBytes outOfRange inRange, live_componentBytes]
    omega

/-! ## Whole frames -/

section Frames

variable
  {state : Ep2State}
  {total : RcvrTotal}
  {request : ConfigRequest}

/-- The first byte of a value in a frame. -/
def ValuePlace.position (place : ValuePlace) (count : Nat) : Nat :=
  slotStart count place.slot + (6 * place.channel + 3 * place.component)

/-- The 24-bit value at a place of the layout, high byte first. -/
def decodePlace
    (count : Nat)
    (payload : Payload)
    (place : ValuePlace) :
    BitVec 24 :=
  let first := place.position count
  (payload first).toBitVec ++ (payload (first + 1)).toBitVec ++
    (payload (first + 2)).toBitVec

/-- The payload after the listed receivers called `load_packet`. -/
def packFrame
    (cast : SampleCast Int)
    (usingIQfiles : Bool)
    (state : Ep2State)
    (buffers : Nat → IqBuffer Int)
    (order : List Nat)
    (payload : Payload) :
    Payload :=
  order.foldl
    (fun current rcvr =>
      (loadPacket cast usingIQfiles state rcvr (buffers rcvr)
        current).payload)
    payload

variable
  {cast : SampleCast Int}
  {usingIQfiles : Bool}
  {buffers : Nat → IqBuffer Int}
  {place : ValuePlace}
  {k : Nat}

theorem Installed.columnOwner_lt
    (installed : Installed total request state)
    (channel : Nat) :
    columnOwner state channel < state.activeNumRcvrs := by
  have pos := installed.active_pos
  unfold columnOwner
  omega

/-- What the owner of a channel stores at byte `k` of a value. -/
theorem Installed.packetPatch_place
    (installed : Installed total request state)
    (inFrame : place.InFrame state)
    (isByte : k < 3)
    (buffer : IqBuffer Int) :
    packetPatch cast usingIQfiles state (columnOwner state place.channel)
        buffer (place.position (frameRcvrs state) + k) =
      componentByte cast usingIQfiles
        (buffer.outBuf (2 * place.slot + place.component)) k := by
  rw [ValuePlace.position, Nat.add_assoc]
  exact installed.packetPatch_column
    (installed.columnOwner_lt place.channel) inFrame.1 inFrame.2.1 rfl
    inFrame.2.2 isByte

/-- The other receivers store nothing there. -/
theorem Installed.packetPatch_place_other
    (installed : Installed total request state)
    (inFrame : place.InFrame state)
    (isByte : k < 3)
    {rcvr : Nat}
    (active : rcvr < state.activeNumRcvrs)
    (notOwner : rcvr ≠ columnOwner state place.channel)
    (buffer : IqBuffer Int) :
    packetPatch cast usingIQfiles state rcvr buffer
        (place.position (frameRcvrs state) + k) = none := by
  have toTotal {rcvr : Nat} (active : rcvr < state.activeNumRcvrs) :
      rcvr < total.count :=
    Nat.lt_of_lt_of_le active installed.active_le_total
  -- In file mode the owner stores all three bytes.
  have ownerStores :
      packetPatch cast true state (columnOwner state place.channel) buffer
        (place.position (frameRcvrs state) + k) ≠ none := by
    rw [installed.packetPatch_place inFrame isByte, componentByte,
      if_pos rfl]
    split_ifs <;> exact Option.some_ne_none _
  by_contra stored
  exact notOwner
    ((installed.owner_of_packetPatch (toTotal active) stored).symm.trans
      (installed.owner_of_packetPatch
        (toTotal (installed.columnOwner_lt place.channel)) ownerStores))

/-- After all active receivers, a byte is the owner's, or what it was before. -/
theorem Installed.packFrame_byte
    (installed : Installed total request state)
    (inFrame : place.InFrame state)
    (isByte : k < 3)
    {order : List Nat}
    (everyActive : order.Perm (List.range state.activeNumRcvrs))
    (payload : Payload) :
    packFrame cast usingIQfiles state buffers order payload
        (place.position (frameRcvrs state) + k) =
      (componentByte cast usingIQfiles
        ((buffers (columnOwner state place.channel)).outBuf
          (2 * place.slot + place.component)) k).getD
        (payload (place.position (frameRcvrs state) + k)) := by
  have ownerActive := installed.columnOwner_lt place.channel
  have isActive {rcvr : Nat} (member : rcvr ∈ order) :
      rcvr < state.activeNumRcvrs :=
    List.mem_range.mp (everyActive.mem_iff.mp member)
  have othersSilent
      (rcvr : Nat)
      (member : rcvr ∈ order)
      (notOwner : rcvr ≠ columnOwner state place.channel)
      (current : Payload) :
      (loadPacket cast usingIQfiles state rcvr (buffers rcvr)
          current).payload (place.position (frameRcvrs state) + k) =
        current (place.position (frameRcvrs state) + k) := by
    rw [installed.loadPacket_of_active (isActive member)]
    exact OverlayWrites.overlay_of_none
      (installed.packetPatch_place_other inFrame isByte (isActive member)
        notOwner _)
  cases stored :
      componentByte cast usingIQfiles
        ((buffers (columnOwner state place.channel)).outBuf
          (2 * place.slot + place.component)) k with
  | none =>
      refine OverlayWrites.foldl_observe_of_untouched
        (fun current =>
          current (place.position (frameRcvrs state) + k)) ?_ payload
      intro rcvr member current
      by_cases isOwner : rcvr = columnOwner state place.channel
      · rw [isOwner, installed.loadPacket_of_active ownerActive]
        refine OverlayWrites.overlay_of_none ?_
        rw [installed.packetPatch_place inFrame isByte, stored]
      · exact othersSilent rcvr member isOwner current
  | some value =>
      refine OverlayWrites.foldl_observe_of_owner
        (fun current =>
          current (place.position (frameRcvrs state) + k))
        (everyActive.mem_iff.mpr (List.mem_range.mpr ownerActive))
        ?_ othersSilent payload
      intro current
      rw [installed.loadPacket_of_active ownerActive]
      refine OverlayWrites.overlay_of_some ?_
      rw [installed.packetPatch_place inFrame isByte, stored,
        Option.getD_some]

/-- A frame decodes to the bytes of the owner's sample, over a blank third byte. -/
theorem Installed.decodePlace_packFrame
    (installed : Installed total request state)
    (inFrame : place.InFrame state)
    {order : List Nat}
    (everyActive : order.Perm (List.range state.activeNumRcvrs))
    {payload : Payload}
    (blank :
      usingIQfiles = true ∨
        payload (place.position (frameRcvrs state) + 2) = 0) :
    decodePlace (frameRcvrs state)
        (packFrame cast usingIQfiles state buffers order payload) place =
      componentBytes cast usingIQfiles
        ((buffers (columnOwner state place.channel)).outBuf
          (2 * place.slot + place.component)) := by
  have byte
      (k : Nat)
      (isByte : k < 3)
      (shown :
        componentByte cast usingIQfiles
            ((buffers (columnOwner state place.channel)).outBuf
              (2 * place.slot + place.component)) k ≠ none ∨
          payload (place.position (frameRcvrs state) + k) = 0) :
      packFrame cast usingIQfiles state buffers order payload
          (place.position (frameRcvrs state) + k) =
        (componentByte cast usingIQfiles
          ((buffers (columnOwner state place.channel)).outBuf
            (2 * place.slot + place.component)) k).getD 0 := by
    rw [installed.packFrame_byte inFrame isByte everyActive]
    rcases shown with stored | isBlank
    · obtain ⟨value, isSome⟩ := Option.ne_none_iff_exists'.mp stored
      rw [isSome]
      rfl
    · rw [isBlank]
  have first := byte 0 (by decide)
    (.inl (by unfold componentByte; cases usingIQfiles <;> simp))
  have second := byte 1 (by decide)
    (.inl (by unfold componentByte; cases usingIQfiles <;> simp))
  have third := byte 2 (by decide)
    (blank.imp_left fun isFile => by
      unfold componentByte
      simp [isFile])
  rw [Nat.add_zero] at first
  rw [decodePlace, first, second, third]
  rfl

/-- What `format_payload` leaves at a value is zero. -/
theorem Installed.formatPayload_place
    (installed : Installed total request state)
    (inFrame : place.InFrame state)
    (isByte : k < 3) :
    formatPayload (place.position (frameRcvrs state) + k) = 0 := by
  have stored :
      packetPatch (cConversion ⟨fun _ => 0, fun _ => 0⟩) true state
          (columnOwner state place.channel) ⟨0, fun _ => 0⟩
          (place.position (frameRcvrs state) + k) ≠ none := by
    rw [installed.packetPatch_place inFrame isByte, componentByte,
      if_pos rfl]
    split_ifs <;> exact Option.some_ne_none _
  have inside :
      ¬ (place.position (frameRcvrs state) + k < 16 ∨
        (520 ≤ place.position (frameRcvrs state) + k ∧
          place.position (frameRcvrs state) + k < 528) ∨
        hpsdrFrameLen ≤ place.position (frameRcvrs state) + k) :=
    fun outside => stored (packetPatch_of_outside _ _ _ _ _ outside)
  unfold formatPayload
  rw [if_neg (by omega), if_neg (by omega), if_neg (by omega)]

end Frames

/-! ## The same values on both paths -/

/-- A receiver's `.wav` file, and the packet of `samples` pairs that is due. -/
structure Recording (samples : Nat) where
  file : Nat → BitVec 16
  /-- How many pairs were read so far. -/
  pairs : Nat
  /-- What was in the buffer before. -/
  before : Nat → Int
  iqSampleOffset : Nat
  packetRead : iqSampleOffset + samples ≤ pairs

section Recording

variable {samples : Nat}

/-- Word `i` of the packet. -/
def Recording.word (recording : Recording samples) (i : Nat) : BitVec 16 :=
  recording.file (recording.iqSampleOffset * 2 + i)

/-- The buffer as the reading thread fills it, or with the same live values. -/
def Recording.buffer
    (recording : Recording samples)
    (usingIQfiles : Bool) :
    IqBuffer Int where
  iqSampleOffset := recording.iqSampleOffset
  iqSamples :=
    if usingIQfiles then
      readWav recording.file recording.pairs recording.before
    else
      fun i => (recording.file i).toInt

/-- The samples of the packet are those of its words. -/
theorem Recording.file_outBuf
    (recording : Recording samples)
    {i : Nat}
    (inPacket : i < 2 * samples) :
    (recording.buffer true).outBuf i = wavSample (recording.word i) := by
  have wasRead : recording.iqSampleOffset * 2 + i < 2 * recording.pairs := by
    have packet := recording.packetRead
    omega
  exact readWav_apply recording.file wasRead recording.before

/-- One frame: what each receiver has to send, and in which order they call. -/
structure FrameRound (active samples : Nat) where
  recording : Nat → Recording samples
  order : List Nat
  everyActive : order.Perm (List.range active)

/-- The payload after a number of frames, from the one `format_payload` leaves. -/
def playRounds
    (cast : SampleCast Int)
    (usingIQfiles : Bool)
    (state : Ep2State)
    (rounds : List (FrameRound state.activeNumRcvrs samples)) :
    Payload :=
  rounds.foldl
    (fun payload round =>
      packFrame cast usingIQfiles state
        (fun rcvr => (round.recording rcvr).buffer usingIQfiles)
        round.order payload)
    formatPayload

/--
The frame of a recording is the live frame of the same values: all conversions
are in range, and each value `s` appears as `256 * s` in both.
-/
structure PathsAgree
    (outOfRange : OutOfRange)
    (state : Ep2State)
    (count : Nat)
    (earlier : List (FrameRound state.activeNumRcvrs samples))
    (round : FrameRound state.activeNumRcvrs samples) : Prop where
  inRange :
    ∀ rcvr < state.activeNumRcvrs, ∀ i < 2 * samples,
      InIntRange (((round.recording rcvr).buffer true).outBuf i)
  scaled :
    ∀ place : ValuePlace, place.InFrame state →
      (decodePlace count
          (playRounds (cConversion outOfRange) false state
            (earlier ++ [round])) place).toInt =
        256 * ((round.recording (columnOwner state place.channel)).word
          (2 * place.slot + place.component)).toInt
  same :
    ∀ place : ValuePlace, place.InFrame state →
      decodePlace count
          (playRounds (cConversion outOfRange) true state
            (earlier ++ [round])) place =
        decodePlace count
          (playRounds (cConversion outOfRange) false state
            (earlier ++ [round])) place

variable
  {state : Ep2State}
  {total : RcvrTotal}
  {request : ConfigRequest}

/-- The live path never writes the third byte of a value. -/
theorem Installed.playRounds_blank
    (installed : Installed total request state)
    {place : ValuePlace}
    (inFrame : place.InFrame state)
    (cast : SampleCast Int)
    (rounds : List (FrameRound state.activeNumRcvrs samples)) :
    playRounds cast false state rounds
      (place.position (frameRcvrs state) + 2) = 0 := by
  induction rounds using List.reverseRecOn with
  | nil =>
      exact installed.formatPayload_place inFrame (by decide)
  | append_singleton earlier round inductionHypothesis =>
      rw [playRounds, List.foldl_append, List.foldl_cons, List.foldl_nil,
        installed.packFrame_byte inFrame (by decide) round.everyActive]
      exact inductionHypothesis

/-- A frame of either path decodes to the bytes of its samples. -/
theorem Installed.decodePlace_playRounds
    (installed : Installed total request state)
    {place : ValuePlace}
    (inFrame : place.InFrame state)
    (cast : SampleCast Int)
    (usingIQfiles : Bool)
    (earlier : List (FrameRound state.activeNumRcvrs samples))
    (round : FrameRound state.activeNumRcvrs samples) :
    decodePlace (frameRcvrs state)
        (playRounds cast usingIQfiles state (earlier ++ [round])) place =
      componentBytes cast usingIQfiles
        (((round.recording (columnOwner state place.channel)).buffer
          usingIQfiles).outBuf (2 * place.slot + place.component)) := by
  rw [playRounds, List.foldl_append, List.foldl_cons, List.foldl_nil]
  refine installed.decodePlace_packFrame inFrame round.everyActive ?_
  cases usingIQfiles with
  | true =>
      exact .inl rfl
  | false =>
      exact .inr (installed.playRounds_blank inFrame cast earlier)

/-- A place of the frame shows a sample of the packet. -/
theorem Installed.place_lt
    (installed : Installed total request state)
    {place : ValuePlace}
    (inFrame : place.InFrame state) :
    2 * place.slot + place.component <
      2 * nsampsPacket (request.numRcvrs - 1) := by
  obtain ⟨rowLt, rowSucc⟩ := installed.row_lt
  have samplesEq := nsampsPacket_eq _ rowLt
  rw [rowSucc] at samplesEq
  rw [← installed.frameRcvrs_eq, samplesEq]
  have slot := inFrame.1
  have component := inFrame.2.2
  omega

/-- Each sample of the packet of an active receiver has a place in the frame. -/
theorem Installed.exists_place
    (installed : Installed total request state)
    {rcvr i : Nat}
    (active : rcvr < state.activeNumRcvrs)
    (inPacket : i < 2 * nsampsPacket (request.numRcvrs - 1)) :
    ∃ place : ValuePlace,
      place.InFrame state ∧
        columnOwner state place.channel = rcvr ∧
        2 * place.slot + place.component = i := by
  obtain ⟨rowLt, rowSucc⟩ := installed.row_lt
  have samplesEq := nsampsPacket_eq _ rowLt
  rw [rowSucc] at samplesEq
  rw [← installed.frameRcvrs_eq, samplesEq] at inPacket
  refine ⟨⟨i / 2, rcvr, i % 2⟩, ⟨?_, ?_, ?_⟩, ?_, ?_⟩
  · show i / 2 < _
    omega
  · exact Nat.lt_of_lt_of_le active (Nat.le_add_right _ _)
  · show i % 2 < 2
    omega
  · unfold columnOwner
    show min rcvr (state.activeNumRcvrs - 1) = rcvr
    omega
  · show 2 * (i / 2) + i % 2 = i
    omega

/-- The paths agree on a frame exactly when its values are those from 0 to 255. -/
theorem Installed.pathsAgree_iff
    (installed : Installed total request state)
    (outOfRange : OutOfRange)
    (earlier :
      List (FrameRound state.activeNumRcvrs
        (nsampsPacket (request.numRcvrs - 1))))
    (round :
      FrameRound state.activeNumRcvrs
        (nsampsPacket (request.numRcvrs - 1))) :
    PathsAgree outOfRange state request.numRcvrs earlier round ↔
      ∀ rcvr < state.activeNumRcvrs,
        ∀ i < 2 * nsampsPacket (request.numRcvrs - 1),
          ((round.recording rcvr).word i).toNat < 2 ^ 8 := by
  have decode {place : ValuePlace} (inFrame : place.InFrame state)
      (usingIQfiles : Bool) :=
    installed.decodePlace_playRounds inFrame (cConversion outOfRange)
      usingIQfiles earlier round
  rw [installed.frameRcvrs_eq] at decode
  constructor
  · intro agree rcvr active i inPacket
    obtain ⟨place, inFrame, isOwner, isSample⟩ :=
      installed.exists_place active inPacket
    refine (componentBytes_eq_iff outOfRange _).mp ⟨?_, ?_⟩
    · rw [← (round.recording rcvr).file_outBuf inPacket]
      exact agree.inRange rcvr active i inPacket
    · have same := agree.same place inFrame
      rw [decode inFrame, decode inFrame, isOwner, isSample,
        (round.recording rcvr).file_outBuf inPacket] at same
      exact same
  · intro small
    refine ⟨?_, ?_, ?_⟩
    · intro rcvr active i inPacket
      rw [(round.recording rcvr).file_outBuf inPacket]
      exact ((componentBytes_eq_iff outOfRange _).mpr
        (small rcvr active i inPacket)).1
    · intro place inFrame
      rw [decode inFrame]
      exact live_componentBytes_toInt outOfRange _
    · intro place inFrame
      have inPacket := installed.place_lt inFrame
      have ownerActive := installed.columnOwner_lt place.channel
      rw [decode inFrame, decode inFrame,
        (round.recording _).file_outBuf inPacket]
      exact ((componentBytes_eq_iff outOfRange _).mpr
        (small _ ownerActive _ inPacket)).2

/--
Under every configuration, and after any frames before it: the frame of a
recording is the live frame of the same values, with all conversions in range,
exactly when each value of it is one from 0 to 255.
-/
theorem wav_frame_agrees_iff
    (outOfRange : OutOfRange)
    (total : RcvrTotal)
    (packets : List Ep2Buffer)
    (state : Ep2State)
    (reached : runEp2 total .initial packets = some state)
    (earlier :
      List (FrameRound state.activeNumRcvrs
        (nsampsPacket ((heldRequest packets).numRcvrs - 1))))
    (round :
      FrameRound state.activeNumRcvrs
        (nsampsPacket ((heldRequest packets).numRcvrs - 1))) :
    PathsAgree outOfRange state (heldRequest packets).numRcvrs
        earlier round ↔
      ∀ rcvr < state.activeNumRcvrs,
        ∀ i < 2 * nsampsPacket ((heldRequest packets).numRcvrs - 1),
          ((round.recording rcvr).word i).toNat < 2 ^ 8 :=
  (runEp2_coherent reached).installed.pathsAgree_iff outOfRange earlier round

/-- A recording that repeats one value. -/
def constantRecording (samples : Nat) (value : BitVec 16) :
    Recording samples where
  file := fun _ => value
  pairs := samples
  before := fun _ => 0
  iqSampleOffset := 0
  packetRead := by
    omega

/-- A round in which every receiver sends that value. -/
def constantRound (active samples : Nat) (value : BitVec 16) :
    FrameRound active samples where
  recording := fun _ => constantRecording samples value
  order := List.range active
  everyActive := List.Perm.refl _

/-- Before any packet, recordings of the value 7 are sent as live values are. -/
theorem wav_frame_agrees_iff_seven :
    PathsAgree ⟨fun _ => 0, fun _ => 0⟩ Ep2State.initial
      (heldRequest []).numRcvrs []
      (constantRound Ep2State.initial.activeNumRcvrs
        (nsampsPacket ((heldRequest []).numRcvrs - 1)) 7) :=
  (wav_frame_agrees_iff ⟨fun _ => 0, fun _ => 0⟩ twoRcvrs []
    Ep2State.initial rfl [] _).mpr
    (fun _ _ _ _ => show (7 : BitVec 16).toNat < 2 ^ 8 by decide)

/-- A recording of the value 256 is in range, and is sent as 1 instead of 65536. -/
theorem wav_frame_differs :
    ¬ ∀ (outOfRange : OutOfRange)
        (total : RcvrTotal)
        (packets : List Ep2Buffer)
        (state : Ep2State),
        runEp2 total .initial packets = some state →
        ∀ earlier
          (round :
            FrameRound state.activeNumRcvrs
              (nsampsPacket ((heldRequest packets).numRcvrs - 1))),
          PathsAgree outOfRange state (heldRequest packets).numRcvrs
            earlier round := by
  intro claimed
  have reached :
      runEp2 twoRcvrs .initial [] = some Ep2State.initial :=
    rfl
  have installed := (runEp2_coherent reached).installed
  have agree :=
    claimed ⟨fun _ => 0, fun _ => 0⟩ twoRcvrs [] _ reached []
      (constantRound _ _ 256)
  have small :=
    (installed.pathsAgree_iff _ _ _).mp agree 0 (by decide) 0 (by decide)
  exact absurd small (show ¬ (256 : BitVec 16).toNat < 2 ^ 8 by decide)

end Recording

end LibRtlSdr.Hpsdr
