import Mathlib.Algebra.Order.Ring.Nat
import Mathlib.Data.List.Induction

namespace LibRtlSdr.RtlSdrRecording

/-!
# Recording a number of bytes

`rtl_sdr -n` counts down the bytes that are still to be written, in the callback
of the asynchronous mode and in the loop of the synchronous mode.  The counter
also stands for an unlimited recording, by the value 0.
-/

/-- The state of a recording. -/
structure Recorder where
  /-- `bytes_to_read`: what is still to be written; 0 records without a limit. -/
  bytesToRead : UInt32
  doExit : Bool
  /-- `rtlsdr_cancel_async` was called. -/
  cancelled : Bool
  /-- The loop of the synchronous mode was left by a `break`. -/
  stopped : Bool
  /-- What the file has taken so far. -/
  written : List UInt8
  deriving DecidableEq

/-- A buffer of samples, and how many bytes the file takes of it at most. -/
structure Delivery where
  bytes : List UInt8
  room : Nat
  /-- The length of a buffer is a `uint32_t`. -/
  fits : bytes.length < 2 ^ 32

/-- The file takes the whole buffer. -/
def Delivery.Complete (delivery : Delivery) : Prop :=
  delivery.bytes.length ≤ delivery.room

/-- `len`, or `(uint32_t)n_read`. -/
def Delivery.len (delivery : Delivery) : UInt32 :=
  UInt32.ofNat delivery.bytes.length

theorem Delivery.len_toNat (delivery : Delivery) :
    delivery.len.toNat = delivery.bytes.length :=
  UInt32.toNat_ofNat_of_lt' delivery.fits

/-- What `fwrite(buf, 1, len, file)` brings into the file. -/
def Delivery.fwrite (delivery : Delivery) (len : UInt32) : List UInt8 :=
  (delivery.bytes.take len.toNat).take delivery.room

/-- A complete write takes as much as it is given. -/
theorem Delivery.Complete.length_fwrite
    {delivery : Delivery}
    (complete : delivery.Complete)
    {len : UInt32}
    (inBuffer : len.toNat ≤ delivery.bytes.length) :
    (delivery.fwrite len).length = len.toNat := by
  have inRoom : len.toNat ≤ delivery.room :=
    Nat.le_trans inBuffer complete
  simp [Delivery.fwrite, inBuffer, inRoom]

namespace Recorder

/-- A recording of `bytesToRead` bytes before its first buffer. -/
def start (bytesToRead : UInt32) : Recorder :=
  { bytesToRead := bytesToRead
    doExit := false
    cancelled := false
    stopped := false
    written := [] }

/-- `(bytes_to_read > 0) && (bytes_to_read < len)`. -/
def isLast (recorder : Recorder) (len : UInt32) : Bool :=
  0 < recorder.bytesToRead && recorder.bytesToRead < len

/-- `if (bytes_to_read > 0) bytes_to_read -= len`. -/
def countDown (recorder : Recorder) (len : UInt32) : Recorder :=
  if 0 < recorder.bytesToRead then
    { recorder with bytesToRead := recorder.bytesToRead - len }
  else
    recorder

@[simp] theorem countDown_stopped (recorder : Recorder) (len : UInt32) :
    (recorder.countDown len).stopped = recorder.stopped := by
  rw [countDown]
  split <;> rfl

/-- `rtlsdr_callback`. -/
def rtlsdrCallback (recorder : Recorder) (buf : Delivery) : Recorder :=
  if recorder.doExit then
    recorder
  else
    let last := recorder.isLast buf.len
    let len := if last then recorder.bytesToRead else buf.len
    let output := buf.fwrite len
    countDown
      { recorder with
        doExit := last
        cancelled :=
          recorder.cancelled || last || output.length != len.toNat
        written := recorder.written ++ output }
      len

/-- The block size of `main`: one out of range is replaced by the default. -/
def outBlockSize (requested : UInt32) : UInt32 :=
  if requested < 512 ∨ 256 * 16384 < requested then 16 * 16384 else requested

/--
One pass of the synchronous loop, with what `rtlsdr_read_sync` brings: nothing
if it fails.
-/
def readSync
    (outBlockSize : UInt32)
    (recorder : Recorder) :
    Option Delivery → Recorder
  | none =>
      if recorder.doExit || recorder.stopped then
        recorder
      else
        { recorder with stopped := true }
  | some block =>
      if recorder.doExit || recorder.stopped then
        recorder
      else
        let last := recorder.isLast block.len
        let nRead := if last then recorder.bytesToRead else block.len
        let output := block.fwrite nRead
        let saved :=
          { recorder with
            doExit := last
            written := recorder.written ++ output }
        if output.length != nRead.toNat then
          { saved with stopped := true }
        else if nRead < outBlockSize then
          { saved with stopped := true }
        else
          countDown saved nRead

/-- At most `n` bytes are written, and once there are `n` the recording has stopped. -/
def KeepsLimit (n : UInt32) (recorder : Recorder) : Prop :=
  recorder.written.length ≤ n.toNat ∧
    (recorder.written.length = n.toNat → recorder.doExit = true)

instance (n : UInt32) (recorder : Recorder) :
    Decidable (KeepsLimit n recorder) :=
  inferInstanceAs (Decidable (_ ∧ _))

/-- What a buffer of `size` bytes does to a recording. -/
inductive Records (before : Recorder) (size : Nat) (after : Recorder) : Prop
  | exited :
      before.doExit = true → after = before →
      Records before size after
  | unlimited :
      before.doExit = false → before.bytesToRead = 0 →
      after.doExit = false → after.bytesToRead = 0 →
      after.written.length = before.written.length + size →
      Records before size after
  | counted :
      before.doExit = false → 0 < before.bytesToRead →
      size ≤ before.bytesToRead.toNat →
      after.doExit = false →
      after.bytesToRead.toNat = before.bytesToRead.toNat - size →
      after.written.length = before.written.length + size →
      Records before size after
  | last :
      before.doExit = false → 0 < before.bytesToRead →
      before.bytesToRead.toNat < size →
      after.doExit = true →
      after.written.length =
        before.written.length + before.bytesToRead.toNat →
      Records before size after

/-- The synchronous loop is left only when the recording ends. -/
def Running (recorder : Recorder) : Prop :=
  recorder.stopped = true → recorder.doExit = true

section Steps

variable {recorder : Recorder} {buf : Delivery}

theorem isLast_iff {len : UInt32} :
    recorder.isLast len = true ↔
      0 < recorder.bytesToRead ∧ recorder.bytesToRead < len := by
  simp [isLast]

/-- The callback counts a buffer that the file takes. -/
theorem rtlsdrCallback_records (complete : buf.Complete) :
    Records recorder buf.bytes.length (recorder.rtlsdrCallback buf) := by
  cases exiting : recorder.doExit with
  | true =>
      exact .exited exiting (by simp [rtlsdrCallback, exiting])
  | false =>
      have whole : (buf.fwrite buf.len).length = buf.bytes.length :=
        (complete.length_fwrite (Nat.le_of_eq buf.len_toNat)).trans
          buf.len_toNat
      by_cases limited : 0 < recorder.bytesToRead
      · by_cases reached : recorder.bytesToRead < buf.len
        · have isLast : recorder.isLast buf.len = true :=
            isLast_iff.mpr ⟨limited, reached⟩
          have below : recorder.bytesToRead.toNat < buf.bytes.length :=
            buf.len_toNat ▸ UInt32.lt_iff_toNat_lt.mp reached
          have taken :=
            complete.length_fwrite (Nat.le_of_lt below)
          apply Records.last exiting limited below
          · simp [rtlsdrCallback, exiting, isLast, countDown, limited]
          · simp [rtlsdrCallback, exiting, isLast, countDown, limited, taken]
        · have notLast : recorder.isLast buf.len = false := by
            simp [isLast, reached]
          have enough : buf.bytes.length ≤ recorder.bytesToRead.toNat :=
            buf.len_toNat ▸ UInt32.le_iff_toNat_le.mp (UInt32.not_lt.mp reached)
          apply Records.counted exiting limited enough
          · simp [rtlsdrCallback, exiting, notLast, countDown, limited]
          · simp [rtlsdrCallback, exiting, notLast, countDown, limited,
              UInt32.toNat_sub_of_le, UInt32.not_lt.mp reached, buf.len_toNat]
          · simp [rtlsdrCallback, exiting, notLast, countDown, limited, whole]
      · have unlimited : recorder.bytesToRead = 0 :=
          UInt32.le_zero_iff.mp (UInt32.not_lt.mp limited)
        have notLast : recorder.isLast buf.len = false := by
          simp [isLast, unlimited]
        apply Records.unlimited exiting unlimited
        · simp [rtlsdrCallback, exiting, notLast, countDown, unlimited]
        · simp [rtlsdrCallback, exiting, notLast, countDown, unlimited]
        · simp [rtlsdrCallback, exiting, notLast, countDown, unlimited, whole]

/-- The callback never leaves the synchronous loop. -/
theorem rtlsdrCallback_running (running : recorder.Running) :
    (recorder.rtlsdrCallback buf).Running := by
  intro stopped
  cases exiting : recorder.doExit with
  | true =>
      simp [rtlsdrCallback, exiting]
  | false =>
      have sameFlag :
          (recorder.rtlsdrCallback buf).stopped = recorder.stopped := by
        simp [rtlsdrCallback, exiting]
      have stoppedBefore : recorder.stopped = true :=
        sameFlag.symm.trans stopped
      exact absurd (running stoppedBefore) (by simp [exiting])

/-- A pass of the synchronous loop counts a full block that the file takes. -/
theorem readSync_records
    {blockSize : UInt32}
    (running : recorder.Running)
    (complete : buf.Complete)
    (full : buf.bytes.length = blockSize.toNat) :
    Records recorder buf.bytes.length
        (recorder.readSync blockSize (some buf)) ∧
      (recorder.readSync blockSize (some buf)).Running := by
  cases exiting : recorder.doExit with
  | true =>
      have unchanged :
          recorder.readSync blockSize (some buf) = recorder := by
        simp [readSync, exiting]
      exact ⟨.exited exiting unchanged, unchanged.symm ▸ running⟩
  | false =>
      have inLoop : recorder.stopped = false := by
        cases stopped : recorder.stopped with
        | false =>
            rfl
        | true =>
            exact (running stopped).symm.trans exiting
      have whole : (buf.fwrite buf.len).length = buf.bytes.length :=
        (complete.length_fwrite (Nat.le_of_eq buf.len_toNat)).trans
          buf.len_toNat
      obtain rfl : buf.len = blockSize :=
        UInt32.toNat_inj.mp (buf.len_toNat.trans full)
      by_cases limited : 0 < recorder.bytesToRead
      · by_cases reached : recorder.bytesToRead < buf.len
        · have isLast : recorder.isLast buf.len = true :=
            isLast_iff.mpr ⟨limited, reached⟩
          have below : recorder.bytesToRead.toNat < buf.bytes.length :=
            buf.len_toNat ▸ UInt32.lt_iff_toNat_lt.mp reached
          have taken :=
            complete.length_fwrite (Nat.le_of_lt below)
          -- the shortened block ends the loop a second time
          have after :
              recorder.readSync buf.len (some buf) =
                { recorder with
                  doExit := true
                  stopped := true
                  written :=
                    recorder.written ++ buf.fwrite recorder.bytesToRead } := by
            simp [readSync, exiting, inLoop, isLast, taken, reached]
          rw [after]
          exact ⟨.last exiting limited below rfl (by simp [taken]),
            fun _ => rfl⟩
        · have notLast : recorder.isLast buf.len = false := by
            simp [isLast, reached]
          have enough : buf.bytes.length ≤ recorder.bytesToRead.toNat :=
            buf.len_toNat ▸ UInt32.le_iff_toNat_le.mp (UInt32.not_lt.mp reached)
          have after :
              recorder.readSync buf.len (some buf) =
                { recorder with
                  bytesToRead := recorder.bytesToRead - buf.len
                  written := recorder.written ++ buf.fwrite buf.len } := by
            simp [readSync, exiting, inLoop, notLast, whole, buf.len_toNat,
              countDown, limited]
          rw [after]
          refine ⟨.counted exiting limited enough exiting ?_ ?_, ?_⟩
          · simp [UInt32.toNat_sub_of_le, UInt32.not_lt.mp reached,
              buf.len_toNat]
          · simp [whole]
          · exact fun stopped => absurd stopped (by simp [inLoop])
      · have unlimited : recorder.bytesToRead = 0 :=
          UInt32.le_zero_iff.mp (UInt32.not_lt.mp limited)
        have notLast : recorder.isLast buf.len = false := by
          simp [isLast, unlimited]
        have after :
            recorder.readSync buf.len (some buf) =
              { recorder with
                written := recorder.written ++ buf.fwrite buf.len } := by
          simp [readSync, exiting, inLoop, notLast, whole, buf.len_toNat,
            countDown, unlimited]
        rw [after]
        refine ⟨.unlimited exiting unlimited exiting unlimited ?_, ?_⟩
        · simp [whole]
        · exact fun stopped => absurd stopped (by simp [inLoop])

end Steps

/-! ## Whole recordings -/

/-- The bytes that were delivered. -/
def delivered (buffers : List Delivery) : Nat :=
  (buffers.map fun buf => buf.bytes.length).sum

theorem delivered_concat
    (buffers : List Delivery)
    (last : Delivery) :
    delivered (buffers ++ [last]) =
      delivered buffers + last.bytes.length := by
  simp [delivered]

/-- Some of the first buffers have together exactly the requested length. -/
def MeetsExactly (n : UInt32) (buffers : List Delivery) : Prop :=
  ∃ earlier later,
    buffers = earlier ++ later ∧ delivered earlier = n.toNat

/-- A meeting stays a meeting when more buffers come. -/
theorem MeetsExactly.concat
    {n : UInt32}
    {buffers : List Delivery}
    (meets : MeetsExactly n buffers)
    (last : Delivery) :
    MeetsExactly n (buffers ++ [last]) := by
  rcases meets with ⟨earlier, later, split, exactly⟩
  exact ⟨earlier, later ++ [last], by rw [split, List.append_assoc], exactly⟩

/-- The last buffer meets the length, or an earlier one did. -/
theorem meetsExactly_concat_iff
    {n : UInt32}
    {buffers : List Delivery}
    {last : Delivery} :
    MeetsExactly n (buffers ++ [last]) ↔
      MeetsExactly n buffers ∨
        delivered (buffers ++ [last]) = n.toNat := by
  constructor
  · rintro ⟨earlier, later, split, exactly⟩
    rcases List.eq_nil_or_concat later with isEmpty | ⟨between, final, isConcat⟩
    · rw [isEmpty, List.append_nil] at split
      exact .inr (split ▸ exactly)
    · rw [isConcat, List.concat_eq_append, ← List.append_assoc] at split
      exact .inl ⟨earlier, between, List.append_inj_left' split rfl, exactly⟩
  · rintro (meets | exactly)
    · exact meets.concat last
    · exact ⟨buffers ++ [last], [], (List.append_nil _).symm, exactly⟩

/--
How far a recording has come after some buffers: it counts, it has stopped at
the limit, or it met the limit exactly and now records without one.
-/
inductive Phase (n : UInt32) (buffers : List Delivery) (recorder : Recorder) :
    Prop
  | counting :
      delivered buffers < n.toNat →
      ¬ MeetsExactly n buffers →
      recorder.doExit = false →
      recorder.bytesToRead.toNat = n.toNat - delivered buffers →
      recorder.written.length = delivered buffers →
      Phase n buffers recorder
  | stopped :
      n.toNat < delivered buffers →
      ¬ MeetsExactly n buffers →
      recorder.doExit = true →
      recorder.written.length = n.toNat →
      Phase n buffers recorder
  | unlimited :
      n.toNat ≤ delivered buffers →
      MeetsExactly n buffers →
      recorder.doExit = false →
      recorder.bytesToRead = 0 →
      recorder.written.length = delivered buffers →
      Phase n buffers recorder

/-- A recording with a limit starts to count. -/
theorem phase_start
    {n : UInt32}
    (positive : 0 < n) :
    Phase n [] (start n) := by
  have positiveNat : 0 < n.toNat := UInt32.lt_iff_toNat_lt.mp positive
  refine .counting positiveNat ?_ rfl rfl rfl
  rintro ⟨earlier, later, split, exactly⟩
  have isEmpty : earlier = [] :=
    (List.append_eq_nil_iff.mp split.symm).1
  rw [isEmpty] at exactly
  exact Nat.ne_of_lt positiveNat exactly

/-- One buffer more takes a recording from phase to phase. -/
theorem Phase.concat
    {n : UInt32}
    {buffers : List Delivery}
    {last : Delivery}
    {before after : Recorder}
    (phase : Phase n buffers before)
    (records : Records before last.bytes.length after) :
    Phase n (buffers ++ [last]) after := by
  have total := delivered_concat buffers last
  cases phase with
  | counting below noMeeting running counter length =>
      cases records with
      | exited exited same =>
          exact absurd (running.symm.trans exited) Bool.false_ne_true
      | unlimited _ zero _ _ _ =>
          have none : before.bytesToRead.toNat = 0 := by
            rw [zero]
            rfl
          omega
      | counted _ _ enough runs counted grown =>
          rcases Nat.lt_or_eq_of_le enough with more | exactly
          · refine .counting (by omega) ?_ runs (by omega) (by omega)
            rw [meetsExactly_concat_iff]
            rintro (meets | meets)
            · exact noMeeting meets
            · omega
          · refine .unlimited (by omega) ?_ runs ?_ (by omega)
            · exact meetsExactly_concat_iff.mpr (.inr (by omega))
            · exact UInt32.toNat_inj.mp (counted.trans (by simp [exactly]))
      | last _ _ tooMuch exits grown =>
          refine .stopped (by omega) ?_ exits (by omega)
          rw [meetsExactly_concat_iff]
          rintro (meets | meets)
          · exact noMeeting meets
          · omega
  | stopped above noMeeting exited length =>
      cases records with
      | exited _ same =>
          subst same
          refine .stopped (by omega) ?_ exited length
          rw [meetsExactly_concat_iff]
          rintro (meets | meets)
          · exact noMeeting meets
          · omega
      | unlimited running _ _ _ _ =>
          exact absurd (running.symm.trans exited) Bool.false_ne_true
      | counted running _ _ _ _ _ =>
          exact absurd (running.symm.trans exited) Bool.false_ne_true
      | last running _ _ _ _ =>
          exact absurd (running.symm.trans exited) Bool.false_ne_true
  | unlimited above meets running zero length =>
      cases records with
      | exited exited _ =>
          exact absurd (running.symm.trans exited) Bool.false_ne_true
      | unlimited _ _ runs stays grown =>
          exact .unlimited (by omega) (meets.concat last) runs stays (by omega)
      | counted _ positive _ _ _ _ =>
          exact absurd positive (by simp [zero])
      | last _ positive _ _ _ =>
          exact absurd positive (by simp [zero])

/-- The limit is kept in every phase but the unlimited one. -/
theorem Phase.keepsLimit_iff
    {n : UInt32}
    {buffers : List Delivery}
    {recorder : Recorder}
    (phase : Phase n buffers recorder) :
    KeepsLimit n recorder ↔ ¬ MeetsExactly n buffers := by
  cases phase with
  | counting below noMeeting _ _ length =>
      exact iff_of_true ⟨by omega, by omega⟩ noMeeting
  | stopped _ noMeeting exited length =>
      exact iff_of_true ⟨Nat.le_of_eq length, fun _ => exited⟩ noMeeting
  | unlimited above meets running _ length =>
      refine iff_of_false ?_ (not_not_intro meets)
      rintro ⟨notMore, stops⟩
      have exited := stops (by omega)
      exact Bool.false_ne_true (running.symm.trans exited)

section Runs

variable
  {n : UInt32}
  {step : Recorder → Delivery → Recorder}
  {Sound : Delivery → Prop}

/-- Every recording is in one of the phases, if each step counts its buffer. -/
theorem phase_foldl
    (records :
      ∀ {recorder buf}, recorder.Running → Sound buf →
        Records recorder buf.bytes.length (step recorder buf) ∧
          (step recorder buf).Running)
    (positive : 0 < n)
    (buffers : List Delivery)
    (sound : ∀ buf ∈ buffers, Sound buf) :
    Phase n buffers (buffers.foldl step (start n)) ∧
      (buffers.foldl step (start n)).Running := by
  induction buffers using List.reverseRecOn with
  | nil =>
      exact ⟨phase_start positive, nofun⟩
  | append_singleton earlier last inductionHypothesis =>
      have before :=
        inductionHypothesis
          (fun buf member => sound buf (List.mem_append_left _ member))
      have recorded :=
        records before.2 (sound last (by simp))
      rw [List.foldl_append, List.foldl_cons, List.foldl_nil]
      exact ⟨before.1.concat recorded.1, recorded.2⟩

/-- A recording keeps its limit unless some buffers meet it exactly. -/
theorem keepsLimit_foldl_iff
    (records :
      ∀ {recorder buf}, recorder.Running → Sound buf →
        Records recorder buf.bytes.length (step recorder buf) ∧
          (step recorder buf).Running)
    (positive : 0 < n)
    (buffers : List Delivery)
    (sound : ∀ buf ∈ buffers, Sound buf) :
    (∀ earlier later,
        buffers = earlier ++ later →
        KeepsLimit n (earlier.foldl step (start n))) ↔
      ¬ MeetsExactly n buffers := by
  have keepsAt :
      ∀ earlier later, buffers = earlier ++ later →
        (KeepsLimit n (earlier.foldl step (start n)) ↔
          ¬ MeetsExactly n earlier) := by
    intro earlier later split
    have soundEarlier : ∀ buf ∈ earlier, Sound buf :=
      fun buf member =>
        sound buf (split ▸ List.mem_append_left later member)
    exact (phase_foldl records positive earlier soundEarlier).1.keepsLimit_iff
  constructor
  · intro keeps
    exact (keepsAt buffers [] (List.append_nil _).symm).mp
      (keeps buffers [] (List.append_nil _).symm)
  · intro noMeeting earlier later split
    apply (keepsAt earlier later split).mpr
    rintro ⟨first, rest, splitEarlier, exactly⟩
    exact noMeeting
      ⟨first, rest ++ later,
        by rw [split, splitEarlier, List.append_assoc], exactly⟩

end Runs

/-- A run over buffers in the asynchronous mode. -/
def recordAsync (n : UInt32) (buffers : List Delivery) : Recorder :=
  buffers.foldl rtlsdrCallback (start n)

/-- A run over blocks in the synchronous mode. -/
def recordSync
    (n requested : UInt32)
    (blocks : List Delivery) : Recorder :=
  blocks.foldl
    (fun recorder block =>
      recorder.readSync (outBlockSize requested) (some block))
    (start n)

/-- Blocks of one size meet a length exactly at one of its multiples. -/
theorem meetsExactly_blocks_iff
    {n : UInt32}
    {size : Nat}
    (blocks : List Delivery)
    (full : ∀ block ∈ blocks, block.bytes.length = size) :
    MeetsExactly n blocks ↔
      ∃ count, count ≤ blocks.length ∧ count * size = n.toNat := by
  have deliveredFull :
      ∀ earlier later, blocks = earlier ++ later →
        delivered earlier = earlier.length * size := by
    intro earlier later split
    have sizes :
        ∀ length ∈ earlier.map (fun block => block.bytes.length),
          length = size := by
      intro length member
      rcases List.mem_map.mp member with ⟨block, inEarlier, rfl⟩
      exact full block (split ▸ List.mem_append_left later inEarlier)
    rw [delivered, List.eq_replicate_of_mem sizes, List.sum_replicate_nat,
      List.length_map]
  constructor
  · rintro ⟨earlier, later, split, exactly⟩
    refine ⟨earlier.length, ?_, ?_⟩
    · simp [split]
    · exact (deliveredFull earlier later split).symm.trans exactly
  · rintro ⟨count, inBlocks, exactly⟩
    have split := (List.take_append_drop count blocks).symm
    refine ⟨blocks.take count, blocks.drop count, split, ?_⟩
    rw [deliveredFull _ _ split, List.length_take, Nat.min_eq_left inBlocks,
      exactly]

/--
A recording of `n` bytes keeps its limit in every state exactly if no first
buffers, and in the synchronous mode no first full blocks, have together
exactly `n` bytes.
-/
theorem recording_keepsLimit_iff
    (n requested : UInt32)
    (buffers blocks : List Delivery)
    (positive : 0 < n)
    (completeBuffers : ∀ buf ∈ buffers, buf.Complete)
    (completeBlocks : ∀ block ∈ blocks, block.Complete)
    (fullBlocks :
      ∀ block ∈ blocks,
        block.bytes.length = (outBlockSize requested).toNat) :
    ((∀ earlier later,
        buffers = earlier ++ later →
        KeepsLimit n (recordAsync n earlier)) ↔
      ∀ earlier later,
        buffers = earlier ++ later → delivered earlier ≠ n.toNat) ∧
    ((∀ earlier later,
        blocks = earlier ++ later →
        KeepsLimit n (recordSync n requested earlier)) ↔
      ∀ count, count ≤ blocks.length →
        count * (outBlockSize requested).toNat ≠ n.toNat) := by
  constructor
  · apply
      (keepsLimit_foldl_iff
        (fun running complete =>
          ⟨rtlsdrCallback_records complete, rtlsdrCallback_running running⟩)
        positive buffers completeBuffers).trans
    simp only [MeetsExactly, not_exists, not_and, ne_eq]
  · have records :
        ∀ {recorder : Recorder} {block : Delivery},
          recorder.Running →
          block.Complete ∧
            block.bytes.length = (outBlockSize requested).toNat →
          Records recorder block.bytes.length
              (recorder.readSync (outBlockSize requested) (some block)) ∧
            (recorder.readSync (outBlockSize requested)
              (some block)).Running :=
      fun running sound => readSync_records running sound.1 sound.2
    apply
      (keepsLimit_foldl_iff records positive blocks
        (fun block member =>
          ⟨completeBlocks block member, fullBlocks block member⟩)).trans
    rw [meetsExactly_blocks_iff blocks fullBlocks]
    simp only [not_exists, not_and, ne_eq]

/-- The shortest block, of silent samples, written as a whole. -/
def silentBlock : Delivery where
  bytes := List.replicate 512 127
  room := 512
  fits := by
    rw [List.length_replicate]
    decide

theorem silentBlock_length : silentBlock.bytes.length = 512 :=
  List.length_replicate

theorem silentBlock_complete : silentBlock.Complete :=
  Nat.le_of_eq silentBlock_length

/-- Two blocks of 512 bytes hold a recording of 1000 bytes and end it. -/
theorem recording_keepsLimit_iff_silent :
    ((∀ earlier later,
        [silentBlock, silentBlock] = earlier ++ later →
        KeepsLimit 1000 (recordAsync 1000 earlier)) ↔
      ∀ earlier later,
        [silentBlock, silentBlock] = earlier ++ later →
        delivered earlier ≠ (1000 : UInt32).toNat) ∧
    ((∀ earlier later,
        [silentBlock, silentBlock] = earlier ++ later →
        KeepsLimit 1000 (recordSync 1000 512 earlier)) ↔
      ∀ count, count ≤ [silentBlock, silentBlock].length →
        count * (outBlockSize 512).toNat ≠ (1000 : UInt32).toNat) := by
  have complete :
      ∀ block ∈ [silentBlock, silentBlock], block.Complete := by
    simp [silentBlock_complete]
  have full :
      ∀ block ∈ [silentBlock, silentBlock],
        block.bytes.length = (outBlockSize 512).toNat := by
    simp [silentBlock_length, outBlockSize]
  exact recording_keepsLimit_iff 1000 512
    [silentBlock, silentBlock] [silentBlock, silentBlock]
    (by decide) complete complete full

/-- A first buffer of exactly the requested length does not end the recording. -/
theorem recording_meets_limit :
    ¬ ∀ (n requested : UInt32) (buffers blocks : List Delivery),
      0 < n →
      (∀ buf ∈ buffers, buf.Complete) →
      (∀ block ∈ blocks, block.Complete) →
      (∀ block ∈ blocks,
        block.bytes.length = (outBlockSize requested).toNat) →
      (∀ earlier later,
        buffers = earlier ++ later →
        KeepsLimit n (recordAsync n earlier)) ∧
      ∀ earlier later,
        blocks = earlier ++ later →
        KeepsLimit n (recordSync n requested earlier) := by
  intro claimed
  have complete : ∀ block ∈ [silentBlock], block.Complete := by
    simp [silentBlock_complete]
  have full :
      ∀ block ∈ [silentBlock],
        block.bytes.length = (outBlockSize 512).toNat := by
    simp [silentBlock_length, outBlockSize]
  have keeps :=
    (claimed 512 512 [silentBlock] [silentBlock] (by decide)
      complete complete full).1 [silentBlock] [] rfl
  have goesOn : ¬ KeepsLimit 512 (recordAsync 512 [silentBlock]) := by
    decide +kernel
  exact goesOn keeps

end Recorder

end LibRtlSdr.RtlSdrRecording
