import LibRtlSdr.BoundedBuffer
import LibRtlSdr.StreamingGroups
import Mathlib.Algebra.Group.Int.Defs
import Mathlib.Algebra.Group.Prod
import Mathlib.Algebra.BigOperators.Group.List.Basic
import Mathlib.Logic.Function.Basic
import Mathlib.Tactic.NormNum
import Mathlib.Tactic.Tauto

namespace LibRtlSdr.RtlFm

/-!
# The square window filter of `rtl_fm`: `rtlsdr_callback` and `low_pass`

`rtlsdr_callback` turns the bytes of a block into 16-bit words in front of
`lowpassed`; `low_pass` adds up `downsample` samples at a time and stores the sums
over the words that it has read.  A group that a block does not complete is
carried in `now_r`, `now_j` and `prev_index`.  Between the two nothing else
happens to a block when `downsample_passes` is 0.
-/

open BoundedBuffer (window blit)

/-- What `rtlsdr_callback` uses of `struct dongle_state`. -/
structure DongleState where
  offsetTuning : Bool
  mute : Nat

/-- What `rtlsdr_callback` and `low_pass` use of `struct demod_state`. -/
structure DemodState where
  lowpassed : Nat → Int16
  lpLen : Nat
  nowR : Int
  nowJ : Int
  prevIndex : Nat
  downsample : Nat

/-- A block of bytes from the device: `buf` and `len`. -/
structure Block where
  buf : Nat → UInt8
  len : Nat

/-! ## Source -/

/-- One turn of the loop of `rotate_90`. -/
def rotate90Turn (buf : Nat → UInt8) (turn : Nat) : Nat → UInt8 :=
  let i := 8 * turn
  let tmp := 255 - buf (i + 3)
  let buf := Function.update buf (i + 3) (buf (i + 2))
  let buf := Function.update buf (i + 2) tmp
  let buf := Function.update buf (i + 4) (255 - buf (i + 4))
  let buf := Function.update buf (i + 5) (255 - buf (i + 5))
  let tmp := 255 - buf (i + 6)
  let buf := Function.update buf (i + 6) (buf (i + 7))
  Function.update buf (i + 7) tmp

/-- `rotate_90`, eight bytes a turn. -/
def rotate90 (block : Block) : Nat → UInt8 :=
  (List.range ((block.len + 7) / 8)).foldl rotate90Turn block.buf

/-- The bytes that `rtlsdr_callback` converts: muted, then rotated. -/
def preparedBuf (s : DongleState) (block : Block) : Nat → UInt8 :=
  let muted := blit 0 (List.replicate s.mute 127) block.buf
  if s.offsetTuning then
    muted
  else
    rotate90 { block with buf := muted }

/-- `s->buf16[i] = (int16_t)buf[i] - 127`, an `uint16_t`. -/
def buf16Of (byte : UInt8) : UInt16 :=
  UInt16.ofInt ((byte.toNat : Int) - 127)

/-- `rtlsdr_callback`: the `memcpy` reads the words as `int16_t`. -/
def rtlsdrCallback
    (s : DongleState)
    (d : DemodState)
    (block : Block) :
    DongleState × DemodState :=
  let buf16 :=
    (window (preparedBuf s block) 0 block.len).map buf16Of
  ({ s with mute := 0 },
    { d with
      lowpassed := blit 0 (buf16.map UInt16.toInt16) d.lowpassed
      lpLen := block.len })

/-- A turn of `low_pass` adds the sample at `i` to the group under way. -/
def addSample (d : DemodState) (i : Nat) : DemodState :=
  { d with
    nowR := d.nowR + (d.lowpassed i).toInt
    nowJ := d.nowJ + (d.lowpassed (i + 1)).toInt
    prevIndex := d.prevIndex + 1 }

/-- A turn that completes the group stores its sums at `i2`. -/
def storeGroup (d : DemodState) (i2 : Nat) : DemodState :=
  { d with
    lowpassed :=
      Function.update
        (Function.update d.lowpassed i2 (Int16.ofInt d.nowR))
        (i2 + 1) (Int16.ofInt d.nowJ)
    prevIndex := 0
    nowR := 0
    nowJ := 0 }

/-- The loop of `low_pass`. -/
def lowPassLoop (d : DemodState) (i i2 : Nat) : DemodState :=
  if i < d.lpLen then
    let added := addSample d i
    if added.prevIndex < added.downsample then
      lowPassLoop added (i + 2) i2
    else
      lowPassLoop (storeGroup added i2) (i + 2) (i2 + 2)
  else
    { d with lpLen := i2 }
termination_by d.lpLen - i
decreasing_by
  all_goals
    simp only [addSample, storeGroup]
    omega

/-- `low_pass`. -/
def lowPass (d : DemodState) : DemodState :=
  lowPassLoop d 0 0

/-- What `low_pass` leaves in `lowpassed`, block after block, and the last state. -/
def filterBlocks :
    DongleState → DemodState → List Block → List Int16 × DemodState
  | _, d, [] =>
      ([], d)
  | s, d, block :: rest =>
      let called := rtlsdrCallback s d block
      let filtered := lowPass called.2
      let later := filterBlocks called.1 filtered rest
      (window filtered.lowpassed 0 filtered.lpLen ++ later.1, later.2)

/-! ## The stream -/

/-- The bytes that are converted, block after block. -/
def preparedBytes : DongleState → List Block → List (List UInt8)
  | _, [] =>
      []
  | s, block :: rest =>
      window (preparedBuf s block) 0 block.len ::
        preparedBytes { s with mute := 0 } rest

/-- The value of a byte. -/
def sampleValue (byte : UInt8) : Int :=
  (byte.toNat : Int) - 127

/-- Consecutive values as pairs of I and Q. -/
def iqPairs {Value : Type} : List Value → List (Value × Value)
  | first :: second :: rest =>
      (first, second) :: iqPairs rest
  | _ =>
      []

/-- Pairs as they stand in a buffer. -/
def interleave {Value : Type} (pairs : List (Value × Value)) : List Value :=
  pairs.flatMap (fun pair => [pair.1, pair.2])

/-- The samples of a stream of bytes. -/
def samplesOf (bytes : List UInt8) : List (Int × Int) :=
  iqPairs (bytes.map sampleValue)

/-- The exact sums of I and Q over the complete groups of `downsample` samples. -/
def groupSums
    (downsample : Nat)
    (samples : List (Int × Int)) :
    List (Int × Int) :=
  (StreamingGroups.groupsOf downsample samples).map List.sum

/-- I is 128 in all samples of a group, or Q is. -/
def Saturated (group : List (Int × Int)) : Prop :=
  (∀ sample ∈ group, sample.1 = 128) ∨ (∀ sample ∈ group, sample.2 = 128)

/-- At 256 samples a group, no complete group is at full scale throughout. -/
def Unsaturated
    (downsample : Nat)
    (samples : List (Int × Int)) : Prop :=
  downsample = 256 →
    ∀ group ∈ StreamingGroups.groupsOf downsample samples,
      ¬ Saturated group

/-! ## Pairs -/

section Pairs

variable {Value : Type}

theorem iqPairs_append
    {first : List Value}
    (even : first.length % 2 = 0)
    (second : List Value) :
    iqPairs (first ++ second) = iqPairs first ++ iqPairs second := by
  induction first using iqPairs.induct with
  | case1 one two rest inductionHypothesis =>
      have evenRest : rest.length % 2 = 0 := by
        simp only [List.length_cons] at even
        omega
      simp only [List.cons_append, iqPairs]
      rw [inductionHypothesis evenRest]
  | case2 first short =>
      match first with
      | [] => rfl
      | [_] => simp at even
      | one :: two :: rest => exact absurd rfl (short one two rest)

theorem iqPairs_flatten
    {blocks : List (List Value)}
    (even : ∀ block ∈ blocks, block.length % 2 = 0) :
    iqPairs blocks.flatten = (blocks.map iqPairs).flatten := by
  induction blocks with
  | nil =>
      rfl
  | cons block rest inductionHypothesis =>
      have evenRest :
          ∀ later ∈ rest, later.length % 2 = 0 :=
        fun later member => even later (List.mem_cons_of_mem _ member)
      rw [List.flatten_cons, iqPairs_append (even block List.mem_cons_self),
        inductionHypothesis evenRest, List.map_cons, List.flatten_cons]

theorem mem_of_mem_iqPairs
    {values : List Value}
    {pair : Value × Value}
    (member : pair ∈ iqPairs values) :
    pair.1 ∈ values ∧ pair.2 ∈ values := by
  induction values using iqPairs.induct with
  | case1 one two rest inductionHypothesis =>
      rcases List.mem_cons.mp member with rfl | later
      · simp
      · have inRest := inductionHypothesis later
        simp [inRest]
  | case2 values short =>
      match values with
      | [] => cases member
      | [_] => cases member
      | one :: two :: rest => exact absurd rfl (short one two rest)

/-- Sample `j` as it stands in a buffer. -/
theorem getElem?_interleave
    (pairs : List (Value × Value))
    (j : Nat) :
    (interleave pairs)[2 * j]? = pairs[j]?.map Prod.fst ∧
      (interleave pairs)[2 * j + 1]? = pairs[j]?.map Prod.snd := by
  induction pairs generalizing j with
  | nil =>
      simp [interleave]
  | cons pair rest inductionHypothesis =>
      have split : interleave (pair :: rest) = pair.1 :: pair.2 :: interleave rest :=
        rfl
      rw [split]
      cases j with
      | zero =>
          simp
      | succ j =>
          rw [show 2 * (j + 1) = 2 * j + 1 + 1 from by omega]
          simpa using inductionHypothesis j

end Pairs

/-! ## In place -/

/-- The group under way. -/
def DemodState.carried (d : DemodState) : StreamingGroups.Carried (Int × Int) where
  phase := d.prevIndex
  sum := (d.nowR, d.nowJ)

/-- A sum as it is stored. -/
def stored (sum : Int × Int) : List Int16 :=
  [Int16.ofInt sum.1, Int16.ofInt sum.2]

/-- The samples from an index on, as `low_pass` reads them. -/
def unread (lowpassed : Nat → Int16) (i count : Nat) : List (Int × Int) :=
  iqPairs ((window lowpassed i (2 * count)).map Int16.toInt)

theorem unread_succ
    (lowpassed : Nat → Int16)
    (i count : Nat) :
    unread lowpassed i (count + 1) =
      ((lowpassed i).toInt, (lowpassed (i + 1)).toInt) ::
        unread lowpassed (i + 2) count := by
  unfold unread
  rw [Nat.mul_succ, Nat.add_comm, BoundedBuffer.window_add]
  rfl

/-- What is stored before the read position leaves the unread samples alone. -/
theorem unread_storeGroup
    (d : DemodState)
    {i i2 : Nat}
    (behind : i2 + 1 < i)
    (count : Nat) :
    unread (storeGroup d i2).lowpassed i count =
      unread d.lowpassed i count := by
  have same :
      window (storeGroup d i2).lowpassed i (2 * count) =
        window d.lowpassed i (2 * count) := by
    apply BoundedBuffer.window_congr
    intro index lower _
    simp only [storeGroup]
    rw [Function.update_of_ne (by omega), Function.update_of_ne (by omega)]
  unfold unread
  rw [same]

/-- The words before the write position, and behind them the sums that were stored. -/
theorem window_storeGroup
    (d : DemodState)
    (i2 : Nat) :
    window (storeGroup d i2).lowpassed 0 (i2 + 2) =
      window d.lowpassed 0 i2 ++ stored (d.nowR, d.nowJ) := by
  have before :
      window (storeGroup d i2).lowpassed 0 i2 = window d.lowpassed 0 i2 := by
    apply BoundedBuffer.window_congr
    intro index _ upper
    simp only [storeGroup]
    rw [Function.update_of_ne (by omega), Function.update_of_ne (by omega)]
  rw [BoundedBuffer.window_add, before]
  simp [window, storeGroup, stored, List.range'_succ]

theorem lowPassLoop_within
    {d : DemodState}
    {i i2 : Nat}
    (more : i < d.lpLen)
    (within : d.prevIndex + 1 < d.downsample) :
    lowPassLoop d i i2 = lowPassLoop (addSample d i) (i + 2) i2 := by
  have goesOn : (addSample d i).prevIndex < (addSample d i).downsample := within
  rw [lowPassLoop, if_pos more, if_pos goesOn]

theorem lowPassLoop_complete
    {d : DemodState}
    {i i2 : Nat}
    (more : i < d.lpLen)
    (complete : ¬ d.prevIndex + 1 < d.downsample) :
    lowPassLoop d i i2 =
      lowPassLoop (storeGroup (addSample d i) i2) (i + 2) (i2 + 2) := by
  have ends : ¬ (addSample d i).prevIndex < (addSample d i).downsample := complete
  rw [lowPassLoop, if_pos more, if_neg ends]

/-- What a loop of `low_pass` makes of the state that it begins with. -/
structure Filtered
    (d done : DemodState)
    (i2 : Nat)
    (fed : List (Int × Int) × StreamingGroups.Carried (Int × Int)) : Prop where
  outputs :
    window done.lowpassed 0 done.lpLen =
      window d.lowpassed 0 i2 ++ fed.1.flatMap stored
  carried :
    done.carried = fed.2
  downsample :
    done.downsample = d.downsample

/--
The loop adds up the unread samples in groups.  The write position never passes
the read position, so nothing is overwritten before it has been read.
-/
theorem lowPassLoop_filtered
    (count : Nat)
    {d : DemodState}
    {i i2 : Nat}
    (behind : i2 ≤ i)
    (length : d.lpLen = i + 2 * count) :
    Filtered d (lowPassLoop d i i2) i2
      (StreamingGroups.feed d.downsample d.carried
        (unread d.lowpassed i count)) := by
  induction count generalizing d i i2 with
  | zero =>
      have ended : ¬ i < d.lpLen := by omega
      rw [lowPassLoop, if_neg ended]
      constructor
      · simp [unread, iqPairs, StreamingGroups.feed, window]
      · rfl
      · rfl
  | succ count inductionHypothesis =>
      have more : i < d.lpLen := by omega
      have lengthAdded : (addSample d i).lpLen = i + 2 + 2 * count := by
        simp only [addSample]
        omega
      rw [unread_succ]
      by_cases within : d.prevIndex + 1 < d.downsample
      · -- the group goes on
        have turn :=
          @inductionHypothesis (addSample d i) (i + 2) i2 (by omega) lengthAdded
        rw [lowPassLoop_within more within,
          StreamingGroups.feed_cons_within _ _ within]
        exact ⟨turn.outputs, turn.carried, turn.downsample⟩
      · -- the group is complete and stored
        have turn :=
          @inductionHypothesis (storeGroup (addSample d i) i2) (i + 2) (i2 + 2)
            (by omega) lengthAdded
        rw [unread_storeGroup _ (by omega)] at turn
        rw [lowPassLoop_complete more within,
          StreamingGroups.feed_cons_complete _ _ within]
        refine ⟨?_, turn.carried, turn.downsample⟩
        have outputs := turn.outputs
        rw [window_storeGroup, List.append_assoc] at outputs
        exact outputs

/-- A call of `low_pass` on a block of whole samples. -/
theorem lowPass_filtered
    {d : DemodState}
    (even : d.lpLen % 2 = 0) :
    Filtered d (lowPass d) 0
      (StreamingGroups.feed d.downsample d.carried
        (unread d.lowpassed 0 (d.lpLen / 2))) := by
  exact lowPassLoop_filtered (d.lpLen / 2) (Nat.le_refl 0) (by omega)

/-! ## Runs -/

/-- The word that is read back as `int16_t` has the value of the byte. -/
theorem buf16Of_toInt
    (byte : UInt8) :
    (buf16Of byte).toInt16.toInt = sampleValue byte := by
  have bound := byte.toNat_lt
  unfold buf16Of sampleValue
  simp only [UInt16.ofInt, UInt16.toInt16_ofNat', Int16.toInt_ofNat',
    Int16.size, Int.bmod]
  omega

/-- `rtlsdr_callback` leaves the samples of the block in front of `lowpassed`. -/
theorem unread_rtlsdrCallback
    (s : DongleState)
    (d : DemodState)
    {block : Block}
    (even : block.len % 2 = 0) :
    unread (rtlsdrCallback s d block).2.lowpassed 0 (block.len / 2) =
      samplesOf (window (preparedBuf s block) 0 block.len) := by
  have whole : 2 * (block.len / 2) = block.len := by omega
  have copied :=
    BoundedBuffer.window_blit_self 0
      (((window (preparedBuf s block) 0 block.len).map buf16Of).map
        UInt16.toInt16)
      d.lowpassed
  simp only [List.length_map, BoundedBuffer.length_window] at copied
  unfold unread samplesOf
  simp only [rtlsdrCallback, whole]
  rw [copied, List.map_map, List.map_map]
  congr 1
  apply List.map_congr_left
  intro byte _
  exact buf16Of_toInt byte

/-- The blocks are fed to the groups one after the other. -/
theorem filterBlocks_feed
    (s : DongleState)
    (d : DemodState)
    {blocks : List Block}
    (even : ∀ block ∈ blocks, block.len % 2 = 0) :
    (filterBlocks s d blocks).1 =
        (StreamingGroups.feedBlocks d.downsample d.carried
          ((preparedBytes s blocks).map samplesOf)).1.flatMap stored ∧
      (filterBlocks s d blocks).2.carried =
        (StreamingGroups.feedBlocks d.downsample d.carried
          ((preparedBytes s blocks).map samplesOf)).2 := by
  induction blocks generalizing s d with
  | nil =>
      exact ⟨rfl, rfl⟩
  | cons block rest inductionHypothesis =>
      have evenBlock := even block List.mem_cons_self
      have evenRest :
          ∀ later ∈ rest, later.len % 2 = 0 :=
        fun later member => even later (List.mem_cons_of_mem _ member)
      have call :=
        lowPass_filtered (d := (rtlsdrCallback s d block).2) evenBlock
      rw [show (rtlsdrCallback s d block).2.lpLen = block.len from rfl,
        unread_rtlsdrCallback s d evenBlock] at call
      have later :=
        inductionHypothesis { s with mute := 0 }
          (lowPass (rtlsdrCallback s d block).2) evenRest
      rw [call.carried, call.downsample] at later
      have outputs := call.outputs
      rw [show window (rtlsdrCallback s d block).2.lowpassed 0 0 = [] from rfl,
        List.nil_append] at outputs
      simp only [filterBlocks, preparedBytes, List.map_cons,
        StreamingGroups.feedBlocks, List.flatMap_append]
      rw [outputs]
      exact ⟨congrArg _ later.1, later.2⟩

/-- Every converted block has its length. -/
theorem length_preparedBytes
    (s : DongleState)
    {blocks : List Block}
    (even : ∀ block ∈ blocks, block.len % 2 = 0) :
    ∀ bytes ∈ preparedBytes s blocks, bytes.length % 2 = 0 := by
  induction blocks generalizing s with
  | nil =>
      intro bytes member
      cases member
  | cons block rest inductionHypothesis =>
      intro bytes member
      rcases List.mem_cons.mp member with rfl | later
      · rw [BoundedBuffer.length_window]
        exact even block List.mem_cons_self
      · exact
          inductionHypothesis _
            (fun block member => even block (List.mem_cons_of_mem _ member))
            bytes later

/-- The samples of the stream are those of its blocks. -/
theorem samplesOf_flatten
    {blocks : List (List UInt8)}
    (even : ∀ block ∈ blocks, block.length % 2 = 0) :
    samplesOf blocks.flatten = (blocks.map samplesOf).flatten := by
  unfold samplesOf
  rw [List.map_flatten, iqPairs_flatten, List.map_map]
  · rfl
  · intro values member
    obtain ⟨block, inBlocks, rfl⟩ := List.mem_map.mp member
    rw [List.length_map]
    exact even block inBlocks

/-- No group is under way. -/
structure Fresh (d : DemodState) : Prop where
  prevIndex : d.prevIndex = 0
  nowR : d.nowR = 0
  nowJ : d.nowJ = 0

/-- The filter as it starts. -/
def initialDemod (downsample : Nat) : DemodState where
  lowpassed := fun _ => 0
  lpLen := 0
  nowR := 0
  nowJ := 0
  prevIndex := 0
  downsample := downsample

theorem Fresh.carried
    {d : DemodState}
    (fresh : Fresh d) :
    d.carried = .empty := by
  unfold DemodState.carried
  rw [fresh.prevIndex, fresh.nowR, fresh.nowJ]
  rfl

/-- The samples of a run. -/
def runSamples (s : DongleState) (blocks : List Block) : List (Int × Int) :=
  samplesOf (preparedBytes s blocks).flatten

/--
From the beginning of a group, `low_pass` stores the sums of the complete groups
of the whole stream and carries the samples behind them.
-/
theorem filterBlocks_groups
    (s : DongleState)
    {d : DemodState}
    (fresh : Fresh d)
    (positive : 0 < d.downsample)
    {blocks : List Block}
    (even : ∀ block ∈ blocks, block.len % 2 = 0) :
    (filterBlocks s d blocks).1 =
        (groupSums d.downsample (runSamples s blocks)).flatMap stored ∧
      (filterBlocks s d blocks).2.carried =
        ⟨(runSamples s blocks).length % d.downsample,
          ((runSamples s blocks).drop
            ((runSamples s blocks).length / d.downsample *
              d.downsample)).sum⟩ := by
  have fed := filterBlocks_feed s d even
  rw [fresh.carried, StreamingGroups.feedBlocks_empty positive,
    ← samplesOf_flatten (length_preparedBytes s even)] at fed
  exact fed

/-! ## Exact sums -/

/-- A sum that an `int16_t` holds. -/
def Fits (sum : Int) : Prop :=
  -32768 ≤ sum ∧ sum < 32768

theorem toInt_eq_iff_fits
    (sum : Int) :
    (Int16.ofInt sum).toInt = sum ↔ Fits sum := by
  rw [Int16.toInt_ofInt]
  simp only [Int16.size, Int.bmod, Fits]
  omega

/-- The stored words are the exact sums when each sum fits. -/
theorem stored_exact_iff
    (sums : List (Int × Int)) :
    (sums.flatMap stored).map Int16.toInt = interleave sums ↔
      ∀ sum ∈ sums, Fits sum.1 ∧ Fits sum.2 := by
  induction sums with
  | nil =>
      simp [interleave]
  | cons sum rest inductionHypothesis =>
      have split :
          ((sum :: rest).flatMap stored).map Int16.toInt =
              interleave (sum :: rest) ↔
            ((Int16.ofInt sum.1).toInt = sum.1 ∧
                (Int16.ofInt sum.2).toInt = sum.2) ∧
              (rest.flatMap stored).map Int16.toInt = interleave rest := by
        simp [interleave, stored, and_assoc]
      rw [split, inductionHypothesis, toInt_eq_iff_fits, toInt_eq_iff_fits,
        List.forall_mem_cons]

/-- The values of a byte are from -127 to 128. -/
theorem sampleValue_bounds
    (byte : UInt8) :
    -127 ≤ sampleValue byte ∧ sampleValue byte ≤ 128 := by
  have bound := byte.toNat_lt
  unfold sampleValue
  omega

theorem samplesOf_bounds
    {bytes : List UInt8}
    {sample : Int × Int}
    (member : sample ∈ samplesOf bytes) :
    (-127 ≤ sample.1 ∧ sample.1 ≤ 128) ∧
      (-127 ≤ sample.2 ∧ sample.2 ≤ 128) := by
  obtain ⟨inFirst, inSecond⟩ := mem_of_mem_iqPairs member
  obtain ⟨i, -, isI⟩ := List.mem_map.mp inFirst
  obtain ⟨q, -, isQ⟩ := List.mem_map.mp inSecond
  rw [← isI, ← isQ]
  exact ⟨sampleValue_bounds i, sampleValue_bounds q⟩

/-- The sum of values of bytes, and when it is at its upper bound. -/
theorem sum_bounds
    {values : List Int}
    (bounds : ∀ value ∈ values, -127 ≤ value ∧ value ≤ 128) :
    -127 * (values.length : Int) ≤ values.sum ∧
      values.sum ≤ 128 * (values.length : Int) ∧
      (values.sum = 128 * (values.length : Int) ↔
        ∀ value ∈ values, value = 128) := by
  induction values with
  | nil =>
      simp
  | cons value rest inductionHypothesis =>
      rw [List.forall_mem_cons] at bounds
      obtain ⟨lower, upper, full⟩ := inductionHypothesis bounds.2
      obtain ⟨least, most⟩ := bounds.1
      rw [List.forall_mem_cons, ← full, List.sum_cons, List.length_cons]
      push_cast
      omega

/-- A sum over at most 256 values wraps exactly when all are 128. -/
theorem fits_sum_iff
    {values : List Int}
    (bounds : ∀ value ∈ values, -127 ≤ value ∧ value ≤ 128)
    (length : values.length ≤ 256) :
    Fits values.sum ↔
      ¬ (values.length = 256 ∧ ∀ value ∈ values, value = 128) := by
  obtain ⟨lower, upper, full⟩ := sum_bounds bounds
  rw [← full]
  unfold Fits
  omega

theorem sum_fst
    (samples : List (Int × Int)) :
    samples.sum.1 = (samples.map Prod.fst).sum :=
  map_list_sum (AddMonoidHom.fst Int Int) samples

theorem sum_snd
    (samples : List (Int × Int)) :
    samples.sum.2 = (samples.map Prod.snd).sum :=
  map_list_sum (AddMonoidHom.snd Int Int) samples

/-- Both components of samples are values of bytes. -/
def InRange (samples : List (Int × Int)) : Prop :=
  (∀ value ∈ samples.map Prod.fst, -127 ≤ value ∧ value ≤ 128) ∧
    (∀ value ∈ samples.map Prod.snd, -127 ≤ value ∧ value ≤ 128)

theorem InRange.ofSamples
    {bytes : List UInt8}
    {samples : List (Int × Int)}
    (among : ∀ sample ∈ samples, sample ∈ samplesOf bytes) :
    InRange samples := by
  constructor
  · intro value member
    obtain ⟨sample, inSamples, rfl⟩ := List.mem_map.mp member
    exact (samplesOf_bounds (among sample inSamples)).1
  · intro value member
    obtain ⟨sample, inSamples, rfl⟩ := List.mem_map.mp member
    exact (samplesOf_bounds (among sample inSamples)).2

/-- The sums of a group fit, unless it has 256 samples at full scale. -/
theorem fits_group_iff
    {group : List (Int × Int)}
    (inRange : InRange group)
    (length : group.length ≤ 256) :
    (Fits group.sum.1 ∧ Fits group.sum.2) ↔
      ¬ (group.length = 256 ∧ Saturated group) := by
  have first := fits_sum_iff inRange.1 (by rwa [List.length_map])
  have second := fits_sum_iff inRange.2 (by rwa [List.length_map])
  rw [List.length_map, List.forall_mem_map] at first second
  rw [sum_fst, sum_snd, first, second]
  unfold Saturated
  tauto

/-- The sums under way stay small: `int` is wide enough for them. -/
theorem filterBlocks_bounded
    (s : DongleState)
    {d : DemodState}
    (fresh : Fresh d)
    (least : 1 ≤ d.downsample)
    (most : d.downsample ≤ 256)
    {blocks : List Block}
    (even : ∀ block ∈ blocks, block.len % 2 = 0) :
    let last := (filterBlocks s d blocks).2
    (-32640 ≤ last.nowR ∧ last.nowR ≤ 32640) ∧
      (-32640 ≤ last.nowJ ∧ last.nowJ ≤ 32640) := by
  have carried := (filterBlocks_groups s fresh least even).2
  have sums := congrArg StreamingGroups.Carried.sum carried
  simp only [DemodState.carried] at sums
  generalize cut :
    (runSamples s blocks).drop
      ((runSamples s blocks).length / d.downsample * d.downsample) =
        rest at sums
  have inRange : InRange rest := by
    apply @InRange.ofSamples (preparedBytes s blocks).flatten
    intro sample member
    rw [← cut] at member
    exact List.mem_of_mem_drop member
  have short : rest.length ≤ 255 := by
    rw [← cut, List.length_drop]
    have remainder :=
      Nat.mod_lt (runSamples s blocks).length
        (show 0 < d.downsample from least)
    have whole :=
      Nat.div_add_mod' (runSamples s blocks).length d.downsample
    omega
  have first := sum_bounds inRange.1
  have second := sum_bounds inRange.2
  rw [List.length_map, ← sum_fst] at first
  rw [List.length_map, ← sum_snd] at second
  rw [← sums] at first second
  simp only at first second
  omega

/--
For every stream, wherever its blocks end: the outputs are the exact sums of I
and Q over consecutive groups of `downsample` samples if and only if no complete
group of 256 samples is at full scale throughout.
-/
theorem lowPass_streams_iff
    (s : DongleState)
    {d : DemodState}
    (fresh : Fresh d)
    (least : 1 ≤ d.downsample)
    (most : d.downsample ≤ 256)
    {blocks : List Block}
    (even : ∀ block ∈ blocks, block.len % 2 = 0) :
    (filterBlocks s d blocks).1.map Int16.toInt =
        interleave (groupSums d.downsample (runSamples s blocks)) ↔
      Unsaturated d.downsample (runSamples s blocks) := by
  rw [(filterBlocks_groups s fresh least even).1, stored_exact_iff]
  unfold groupSums Unsaturated
  rw [List.forall_mem_map]
  have inRange :
      ∀ group ∈
          StreamingGroups.groupsOf d.downsample (runSamples s blocks),
        InRange group :=
    fun group member =>
      InRange.ofSamples
        (fun _ inGroup => StreamingGroups.mem_of_mem_groupsOf member inGroup)
  constructor
  · intro fits full group member
    have length := StreamingGroups.length_of_mem_groupsOf member
    have exact :=
      (fits_group_iff (inRange group member) (by omega)).mp
        (fits group member)
    exact fun saturated => exact ⟨by omega, saturated⟩
  · intro unsaturated group member
    have length := StreamingGroups.length_of_mem_groupsOf member
    apply (fits_group_iff (inRange group member) (by omega)).mpr
    rintro ⟨full, saturated⟩
    exact unsaturated (by omega) group member saturated

/-- The first of two blocks ends inside the second group. -/
theorem lowPass_streams_across_blocks :
    (filterBlocks ⟨true, 0⟩ (initialDemod 2)
        [⟨fun _ => 200, 6⟩, ⟨fun _ => 100, 2⟩]).1.map Int16.toInt =
      interleave
        (groupSums 2
          (runSamples ⟨true, 0⟩
            [⟨fun _ => 200, 6⟩, ⟨fun _ => 100, 2⟩])) :=
  (lowPass_streams_iff ⟨true, 0⟩ (d := initialDemod 2) ⟨rfl, rfl, rfl⟩
    (by decide) (by decide) (by simp)).mpr
    (fun full => absurd full (by decide))

/-- Without muting and rotation the bytes of a block are converted as they are. -/
theorem preparedBuf_of_offsetTuning
    (block : Block) :
    preparedBuf ⟨true, 0⟩ block = block.buf := by
  funext index
  simp [preparedBuf]

theorem window_constant
    {Value : Type}
    (value : Value)
    (start length : Nat) :
    window (fun _ => value) start length = List.replicate length value := by
  rw [window, List.map_const', List.length_range']

theorem iqPairs_replicate
    {Value : Type}
    (value : Value)
    (count : Nat) :
    iqPairs (List.replicate (2 * count) value) =
      List.replicate count (value, value) := by
  induction count with
  | zero =>
      rfl
  | succ count inductionHypothesis =>
      rw [Nat.mul_succ, List.replicate_succ, List.replicate_succ, iqPairs,
        inductionHypothesis, List.replicate_succ]

/-- 256 samples at full scale: both sums are 32768 and are stored as -32768. -/
theorem lowPass_wraps_at_full_scale :
    (filterBlocks ⟨true, 0⟩ (initialDemod 256)
        [⟨fun _ => 255, 512⟩]).1.map Int16.toInt ≠
      interleave
        (groupSums 256 (runSamples ⟨true, 0⟩ [⟨fun _ => 255, 512⟩])) := by
  have samples :
      runSamples ⟨true, 0⟩ [⟨fun _ => 255, 512⟩] =
        List.replicate 256 ((128 : Int), (128 : Int)) := by
    have value : sampleValue 255 = 128 := by decide
    simp only [runSamples, preparedBytes, preparedBuf_of_offsetTuning,
      window_constant, List.flatten_cons, List.flatten_nil, List.append_nil,
      samplesOf, List.map_replicate, value]
    exact iqPairs_replicate 128 256
  have groups :=
    StreamingGroups.groupsOf_append (by decide)
      (List.length_replicate (n := 256) (a := ((128 : Int), (128 : Int)))) []
  have sums :
      groupSums 256 (List.replicate 256 ((128 : Int), (128 : Int))) =
        [(32768, 32768)] := by
    rw [List.append_nil] at groups
    unfold groupSums
    rw [groups, List.map_cons, List.sum_replicate]
    rfl
  have outputs :=
    (@filterBlocks_groups ⟨true, 0⟩ (initialDemod 256) ⟨rfl, rfl, rfl⟩
      (by decide) [⟨fun _ => 255, 512⟩] (by simp)).1
  rw [samples, show (initialDemod 256).downsample = 256 from rfl,
    sums] at outputs
  rw [outputs, samples, sums]
  decide

end LibRtlSdr.RtlFm
