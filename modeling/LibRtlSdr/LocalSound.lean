import LibRtlSdr.BoundedBuffer
import LibRtlSdr.CircularIndex
import LibRtlSdr.PartialRun
import Mathlib.Algebra.Order.Ring.Int

namespace LibRtlSdr.LocalSound

/-!
# The ring between the packets and the sound card

`write_local_sound` puts the audio of each packet into a circular buffer, and the audio
thread hands it to ALSA.  The two sides share the buffer and its two indices without a
lock.  Every access to an index of the other side, every copy and every update of an index
is a step of its own.

The fields of a state behind `reader` are no variables of the program: they record what
has passed through the ring.
-/

open BoundedBuffer (blit window)

/-! ## Source -/

/-- The sizes that `alsa_setup` gets from ALSA, in bytes: a period is a part of the
buffer. -/
structure Hardware where
  hwBufferSize : Nat
  hwPeriodSize : Nat
  hwPeriodSizeIn : Nat
  isPart : 0 < hwPeriodSize ∧ hwPeriodSize ≤ hwBufferSize

/-- `thread_buffer_time`, as `alsa_init` sets it. -/
def threadBufferTime : Nat :=
  1000

/-- `inputf->bps` for a rate of 48000 and two channels of 16 bits. -/
def inputBps : Nat :=
  (48000 * 16 * 2) >>> 3

/-- `thread_buffer_size`, as `alsa_open(48000, 2, 8192)` computes it. -/
def Hardware.threadBufferSize (hardware : Hardware) : Nat :=
  let width := 8192
  let size := threadBufferTime * inputBps / 1000
  let size := if size < hardware.hwBufferSize then hardware.hwBufferSize * 2 else size
  let size := if size < width then width else size
  let size := size + hardware.hwBufferSize
  size - size % hardware.hwPeriodSize

/-- Where `alsa_write` stands, with what is left of its bytes. -/
inductive Writer where
  | idle
  /-- At the head of the loop. -/
  | copying (src : List UInt8)
  /-- `cnt` bytes are copied, and `wr_index` still stands in front of them. -/
  | copied (src : List UInt8) (cnt : Nat)

/-- Where `alsa_write_out_thread_data` stands. -/
inductive Reader where
  | idle
  /-- `MIN` evaluates `get_thread_buffer_filled` once more. -/
  | again
  /-- `wr_index >= rd_index` is decided, for the first or the second evaluation. -/
  | compared (isSecond notBehind : Bool)
  /-- `length` is computed from the ring. -/
  | measured (length : Int)
  /-- At the head of the loop. -/
  | sending (length : Int)
  /-- ALSA has accepted `cnt` bytes, and `rd_index` still stands in front of them. -/
  | sent (length : Int) (cnt : Nat)

/-- The variables of both sides. -/
structure Ring where
  threadBuffer : Nat → UInt8
  wrIndex : Nat
  rdIndex : Nat
  doOnce : Bool
  inCount : Nat
  removePrebuffer : Bool
  alsaTotalWritten : UInt32
  alsaHwWritten : UInt32
  writer : Writer
  reader : Reader
  /-- The bytes that were passed to `alsa_write`. -/
  passed : List UInt8
  /-- The bytes that ALSA has accepted. -/
  handed : List UInt8
  /-- How many bytes `wr_index` has moved over. -/
  written : Nat
  /-- How many bytes `rd_index` has moved over. -/
  read : Nat
  /-- Which of the passed bytes was copied to a place last. -/
  origin : Nat → Option Nat

/-- The ring behind `alsa_open`. -/
def Ring.initial : Ring where
  threadBuffer _ := 0
  wrIndex := 0
  rdIndex := 0
  doOnce := true
  inCount := 0
  removePrebuffer := false
  alsaTotalWritten := 0
  alsaHwWritten := 0
  writer := .idle
  reader := .idle
  passed := []
  handed := []
  written := 0
  read := 0
  origin _ := none

/-- The left and right bytes of a packet, without I and Q. -/
def soundBytes (samples : Nat → UInt8) : List UInt8 :=
  let frame (i : Nat) := [samples i, samples (i + 1), samples (i + 2), samples (i + 3)]
  (List.range' 8 63 8).flatMap frame ++ (List.range' 520 63 8).flatMap frame

section Sides

variable (hardware : Hardware)

/-- The subtraction of `get_thread_buffer_filled` behind its comparison. -/
def filledBy (notBehind : Bool) (wrIndex rdIndex : Nat) : Int :=
  if notBehind then
    wrIndex - rdIndex
  else
    hardware.threadBufferSize - (rdIndex - wrIndex)

/-- `get_thread_buffer_filled`, without a step of the other side between its reads. -/
def getThreadBufferFilled (s : Ring) : Int :=
  filledBy hardware (decide (s.wrIndex ≥ s.rdIndex)) s.wrIndex s.rdIndex

/-- The value of `alsa_free`, which no caller asks for. -/
def alsaFree (s : Ring) : Int :=
  hardware.threadBufferSize - getThreadBufferFilled hardware s - 1

/-- The counting of `write_local_sound`, while `do_once` is set. -/
def countPacket (s : Ring) : Ring :=
  { s with
    inCount := if s.doOnce then s.inCount + 1 else s.inCount
    doOnce := s.doOnce && !(s.inCount > threadBufferTime) }

/-- Packets behind the first half of the count are left out. -/
def leavesOut (s : Ring) : Bool :=
  s.doOnce && s.inCount + 1 > threadBufferTime / 2 && s.inCount + 1 < threadBufferTime

/-- `alsa_write`, up to its loop. -/
def alsaWrite (data : List UInt8) (s : Ring) : Ring :=
  { s with
    removePrebuffer := false
    alsaTotalWritten := s.alsaTotalWritten + UInt32.ofNat data.length
    writer := .copying data
    passed := s.passed ++ data }

/-- `write_local_sound`, up to the loop of `alsa_write`. -/
def writeLocalSound (samples : Nat → UInt8) (s : Ring) : Ring :=
  if leavesOut s then
    countPacket s
  else
    alsaWrite (soundBytes samples) (countPacket s)

/-- The `memcpy` of `alsa_write`. -/
def memcpy (src : List UInt8) (s : Ring) : Ring :=
  let cnt := min src.length (hardware.threadBufferSize - s.wrIndex)
  { s with
    threadBuffer := blit s.wrIndex (src.take cnt) s.threadBuffer
    writer := .copied src cnt
    origin := fun place =>
      if s.wrIndex ≤ place ∧ place < s.wrIndex + cnt then
        some (s.written + (place - s.wrIndex))
      else
        s.origin place }

/-- The update of `wr_index`, and the end of the loop when no bytes are left. -/
def setWrIndex (src : List UInt8) (cnt : Nat) (s : Ring) : Ring :=
  { s with
    wrIndex := (s.wrIndex + cnt) % hardware.threadBufferSize
    writer := if src.length - cnt > 0 then .copying (src.drop cnt) else .idle
    written := s.written + cnt }

/-- `get_thread_buffer_filled` has a value; `MIN` compares the first one. -/
def measure (isSecond notBehind : Bool) (s : Ring) : Ring :=
  let filled := filledBy hardware notBehind s.wrIndex s.rdIndex
  if isSecond then
    { s with reader := .measured filled }
  else if hardware.hwPeriodSizeIn < filled then
    { s with reader := .measured hardware.hwPeriodSizeIn }
  else
    { s with reader := .again }

/-- The head of the loop, and the call of `alsa_write_audio`. -/
def send (length : Int) (s : Ring) : Ring :=
  if length > 0 then
    let cnt := min length.toNat (hardware.threadBufferSize - s.rdIndex)
    { s with
      alsaHwWritten := s.alsaHwWritten + UInt32.ofNat cnt
      reader := .sent length cnt
      handed := s.handed ++ window s.threadBuffer s.rdIndex cnt }
  else
    { s with reader := .idle }

/-- The update of `rd_index`. -/
def setRdIndex (length : Int) (cnt : Nat) (s : Ring) : Ring :=
  { s with
    rdIndex := (s.rdIndex + cnt) % hardware.threadBufferSize
    reader := .sending (length - cnt)
    read := s.read + cnt }

end Sides

/-- The steps of the two sides. -/
inductive Action where
  /-- A packet arrives. -/
  | packet (samples : Nat → UInt8)
  | memcpy
  | setWrIndex
  /-- The comparison of `get_thread_buffer_filled`; the first one begins a call. -/
  | compare
  | measure
  /-- `alsa_get_avail` announces so many bytes. -/
  | avail (bytes : Nat)
  | send
  | setRdIndex

/-- A step of the system. -/
def step (hardware : Hardware) (s : Ring) : Action → Option Ring
  | .packet samples =>
      match s.writer with
      | .idle => some (writeLocalSound samples s)
      | _ => none
  | .memcpy =>
      match s.writer with
      | .copying src => some (memcpy hardware src s)
      | _ => none
  | .setWrIndex =>
      match s.writer with
      | .copied src cnt => some (setWrIndex hardware src cnt s)
      | _ => none
  | .compare =>
      match s.reader with
      | .idle =>
          some { s with reader := .compared false (decide (s.wrIndex ≥ s.rdIndex)) }
      | .again =>
          some { s with reader := .compared true (decide (s.wrIndex ≥ s.rdIndex)) }
      | _ => none
  | .measure =>
      match s.reader with
      | .compared isSecond notBehind => some (measure hardware isSecond notBehind s)
      | _ => none
  | .avail bytes =>
      match s.reader with
      | .measured length =>
          some { s with reader := .sending (if length < bytes then length else bytes) }
      | _ => none
  | .send =>
      match s.reader with
      | .sending length => some (send hardware length s)
      | _ => none
  | .setRdIndex =>
      match s.reader with
      | .sent length cnt => some (setRdIndex hardware length cnt s)
      | _ => none

/-! ## What a ring promises -/

/-- ALSA gets the passed bytes in order, no unread byte is overwritten, and the indices
tell how many there are. -/
structure Ring.Holds (hardware : Hardware) (s : Ring) : Prop where
  inOrder : s.handed <+: s.passed
  intact :
    ∀ unread < s.written - s.read,
      s.origin ((s.rdIndex + unread) % hardware.threadBufferSize) = some (s.read + unread)
  filled : getThreadBufferFilled hardware s = s.written - s.read

/-- A copy overwrites no unread byte, and `wr_index` does not get to `rd_index`. -/
def HasRoom (hardware : Hardware) (s : Ring) : Action → Prop
  | .memcpy =>
      ∀ src, s.writer = .copying src →
        (min src.length (hardware.threadBufferSize - s.wrIndex) : Nat) ≤
          alsaFree hardware s + 1
  | .setWrIndex =>
      ∀ src cnt, s.writer = .copied src cnt → cnt ≤ alsaFree hardware s
  | _ => True

/-! ## Sizes -/

theorem Hardware.threadBufferSize_pos (hardware : Hardware) :
    0 < hardware.threadBufferSize := by
  have isPart := hardware.isPart
  unfold Hardware.threadBufferSize
  dsimp only
  generalize (if (if threadBufferTime * inputBps / 1000 < hardware.hwBufferSize then
    hardware.hwBufferSize * 2 else threadBufferTime * inputBps / 1000) < 8192 then 8192
    else if threadBufferTime * inputBps / 1000 < hardware.hwBufferSize then
    hardware.hwBufferSize * 2 else threadBufferTime * inputBps / 1000) = rest
  have remainder := Nat.mod_lt (rest + hardware.hwBufferSize) isPart.1
  omega

theorem length_soundBytes (samples : Nat → UInt8) : (soundBytes samples).length = 504 := by
  simp [soundBytes, List.length_flatMap]

end LibRtlSdr.LocalSound
