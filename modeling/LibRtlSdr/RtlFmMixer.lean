import LibRtlSdr.RtlFmFifthOrder
import LibRtlSdr.RtlFmLowPass
import Mathlib.Algebra.Group.Int.Even
import Mathlib.Algebra.Group.Prod
import Mathlib.Logic.Function.Iterate
import Mathlib.Tactic.Abel

namespace LibRtlSdr.RtlFm

/-!
# The mixer of `rtl_fm`: `rotate_90` in front of `low_pass`

The sample with number n is turned by n quarter turns, around the middle of the range
of a byte.  A signal a quarter of the rate below the tuned frequency stands still then,
and what stood still, as the offset that a receiver adds to every sample, goes around.
Over a number of samples that is a multiple of four it adds up to nothing.
-/

open BoundedBuffer (window blit)
open StreamingGroups (groupsOf)

/-! ## Turns -/

/-- A sample of bytes, a quarter turn on. -/
def turnedBytes (sample : UInt8 × UInt8) : UInt8 × UInt8 :=
  (255 - sample.2, sample.1)

/-- The values of a sample, a quarter turn on; the middle of a byte has the value 1/2. -/
def turned (sample : Int × Int) : Int × Int :=
  (1 - sample.2, sample.1)

/-- A difference of two samples, a quarter turn on. -/
def quarter (difference : Int × Int) : Int × Int :=
  (-difference.2, difference.1)

/-- A stream, each sample turned as often as its number says. -/
def mixed (samples : List (Int × Int)) : List (Int × Int) :=
  samples.mapIdx (fun n sample => turned^[n] sample)

/-- The bytes that the device has delivered. -/
def captured (blocks : List Block) : List UInt8 :=
  blocks.flatMap (fun block => window block.buf 0 block.len)

/-- The sample with number `n` of a block. -/
def sampleAtPair (buf : Nat → UInt8) (n : Nat) : UInt8 × UInt8 :=
  (buf (2 * n), buf (2 * n + 1))

/-- The value of both bytes. -/
def pairValue (sample : UInt8 × UInt8) : Int × Int :=
  (sampleValue sample.1, sampleValue sample.2)

theorem pairValue_turnedBytes
    (sample : UInt8 × UInt8) :
    pairValue (turnedBytes sample) = turned (pairValue sample) := by
  have below := sample.2.toNat_lt
  have exact : ((255 : UInt8) - sample.2).toNat = 255 - sample.2.toNat := by
    rw [UInt8.toNat_sub_of_le]
    · rfl
    · rw [UInt8.le_iff_toNat_le]
      change sample.2.toNat ≤ 255
      omega
  unfold pairValue turnedBytes turned sampleValue
  simp only [Prod.mk.injEq, and_true]
  omega

theorem pairValue_iterate
    (sample : UInt8 × UInt8)
    (n : Nat) :
    pairValue (turnedBytes^[n] sample) = turned^[n] (pairValue sample) :=
  (Function.Semiconj.iterate_right (fun sample => pairValue_turnedBytes sample) n) sample

/-- Four quarter turns are none. -/
theorem turned_four
    (sample : Int × Int) :
    turned^[4] sample = sample := by
  change turned (turned (turned (turned sample))) = sample
  unfold turned
  ext <;> simp

/-- A multiple of four turns in front makes no difference. -/
theorem turned_add_multiple
    {m : Nat}
    (multiple : m % 4 = 0)
    (n : Nat) :
    turned^[n + m] = turned^[n] := by
  obtain ⟨rounds, rfl⟩ := Nat.dvd_of_mod_eq_zero multiple
  funext sample
  rw [Function.iterate_add_apply, Function.iterate_mul]
  congr 1
  exact Function.iterate_fixed (turned_four sample) rounds

/-! ## `rotate_90` -/

/-- A turn of the loop turns its four samples. -/
theorem rotate90Turn_pair
    (buf : Nat → UInt8)
    (turn n : Nat) :
    sampleAtPair (rotate90Turn buf turn) n =
      if 4 * turn ≤ n ∧ n < 4 * turn + 4 then
        turnedBytes^[n - 4 * turn] (sampleAtPair buf n)
      else
        sampleAtPair buf n := by
  by_cases inside : 4 * turn ≤ n ∧ n < 4 * turn + 4
  · rw [if_pos inside]
    obtain ⟨k, rfl⟩ := Nat.exists_eq_add_of_le inside.1
    have few : k < 4 := by omega
    rw [Nat.add_sub_cancel_left]
    have cases : k = 0 ∨ k = 1 ∨ k = 2 ∨ k = 3 := by omega
    have place : 2 * (4 * turn + k) = 8 * turn + 2 * k := by omega
    unfold sampleAtPair
    rw [place]
    have twice : ∀ byte : UInt8, 255 - (255 - byte) = byte := by
      intro byte
      grind
    rcases cases with rfl | rfl | rfl | rfl
    all_goals
      simp [rotate90Turn, turnedBytes, Function.iterate_succ, twice, Nat.add_assoc]
  · rw [if_neg inside]
    unfold sampleAtPair rotate90Turn
    simp only [Function.update_apply]
    have outside : n < 4 * turn ∨ 4 * turn + 4 ≤ n := by omega
    congr 1
    all_goals
      repeat rw [if_neg (by omega)]

/-- The loop turns the samples of the block. -/
theorem rotate90_pair
    {block : Block}
    {n : Nat}
    (inBlock : 2 * n < block.len) :
    sampleAtPair (rotate90 block) n = turnedBytes^[n % 4] (sampleAtPair block.buf n) := by
  have loop :
      ∀ turns,
        sampleAtPair ((List.range turns).foldl rotate90Turn block.buf) n =
          if n < 4 * turns then
            turnedBytes^[n % 4] (sampleAtPair block.buf n)
          else
            sampleAtPair block.buf n := by
    intro turns
    induction turns with
    | zero =>
        rw [if_neg (by omega)]
        rfl
    | succ turns inductionHypothesis =>
        rw [List.range_succ, List.foldl_append, List.foldl_cons, List.foldl_nil,
          rotate90Turn_pair, inductionHypothesis]
        by_cases here : 4 * turns ≤ n ∧ n < 4 * turns + 4
        · rw [if_pos here, if_neg (by omega), if_pos (by omega),
            show n - 4 * turns = n % 4 from by omega]
        · rw [if_neg here]
          congr 1
          apply propext
          omega
  have all := loop ((block.len + 7) / 8)
  rw [if_pos (by omega)] at all
  exact all

/-- The samples of a block, by their numbers. -/
theorem samplesOf_window
    (buf : Nat → UInt8)
    (count : Nat) :
    samplesOf (window buf 0 (2 * count)) =
      (List.range count).map (fun n => pairValue (sampleAtPair buf n)) := by
  induction count with
  | zero =>
      rfl
  | succ count inductionHypothesis =>
      rw [Nat.mul_succ, BoundedBuffer.window_add, samplesOf, List.map_append,
        iqPairs_append (by simp), ← samplesOf, inductionHypothesis, List.range_succ,
        List.map_append, Nat.zero_add]
      rfl

/-- A block of whole turns, behind `rotate_90`. -/
theorem samplesOf_rotate90
    {block : Block}
    (whole : block.len % 8 = 0) :
    samplesOf (window (rotate90 block) 0 block.len) =
      mixed (samplesOf (window block.buf 0 block.len)) := by
  obtain ⟨count, length⟩ : ∃ count, block.len = 2 * count :=
    ⟨block.len / 2, by omega⟩
  rw [length, samplesOf_window, samplesOf_window]
  unfold mixed
  apply List.ext_getElem
  · simp
  · intro n inside _
    rw [List.length_map, List.length_range] at inside
    have folded : turned^[n] = turned^[n % 4] := by
      have split := turned_add_multiple (show 4 * (n / 4) % 4 = 0 by omega) (n % 4)
      rwa [Nat.mod_add_div] at split
    simp only [List.getElem_map, List.getElem_range, List.getElem_mapIdx]
    rw [rotate90_pair (by omega), pairValue_iterate, folded]

/-- A stream may be mixed in pieces of whole turns. -/
theorem mixed_append
    {first : List (Int × Int)}
    (whole : first.length % 4 = 0)
    (second : List (Int × Int)) :
    mixed (first ++ second) = mixed first ++ mixed second := by
  unfold mixed
  rw [List.mapIdx_append]
  congr 2
  funext n
  exact turned_add_multiple whole n

theorem length_samplesOf_window
    (buf : Nat → UInt8)
    (count : Nat) :
    (samplesOf (window buf 0 (2 * count))).length = count := by
  rw [samplesOf_window, List.length_map, List.length_range]

/-- What is filtered is the capture, mixed as one stream. -/
theorem runSamples_mixed
    {blocks : List Block}
    (whole : ∀ block ∈ blocks, block.len % 8 = 0) :
    runSamples ⟨false, 0⟩ blocks = mixed (samplesOf (captured blocks)) := by
  induction blocks with
  | nil =>
      rfl
  | cons block rest inductionHypothesis =>
      rw [List.forall_mem_cons] at whole
      have evenBytes :
          (window (rotate90 block) 0 block.len).length % 2 = 0 := by
        rw [BoundedBuffer.length_window]
        omega
      have evenCapture : (window block.buf 0 block.len).length % 2 = 0 := by
        rw [BoundedBuffer.length_window]
        omega
      have plain : preparedBuf ⟨false, 0⟩ block = rotate90 block := by
        simp [preparedBuf]
      have count : block.len = 2 * (block.len / 2) := by omega
      have turns : (samplesOf (window block.buf 0 block.len)).length % 4 = 0 := by
        rw [count, length_samplesOf_window]
        omega
      unfold runSamples captured
      rw [preparedBytes, List.flatten_cons, List.flatMap_cons, plain]
      unfold samplesOf at *
      rw [List.map_append, iqPairs_append (by simpa using evenBytes), List.map_append,
        iqPairs_append (by simpa using evenCapture), mixed_append turns]
      have first := @samplesOf_rotate90 block whole.1
      unfold samplesOf at first
      rw [first]
      congr 1
      exact inductionHypothesis whole.2

/-! ## The offset of the receiver -/

/-- What the turns of an offset add up to, from sample `start` on. -/
def turnedOffsets (offset : Int × Int) (start count : Nat) : Int × Int :=
  ((List.range count).map (fun k => quarter^[start + k] offset)).sum

/-- An offset is turned with the samples. -/
theorem turned_offset
    (sample offset : Int × Int)
    (n : Nat) :
    turned^[n] (sample + offset) = turned^[n] sample + quarter^[n] offset := by
  induction n generalizing sample offset with
  | zero =>
      rfl
  | succ n inductionHypothesis =>
      rw [Function.iterate_succ_apply, Function.iterate_succ_apply,
        Function.iterate_succ_apply, ← inductionHypothesis]
      congr 1
      unfold turned quarter
      ext
      · simp only [Prod.snd_add, Prod.fst_add]
        omega
      · rfl

theorem quarter_zero_iff
    (offset : Int × Int)
    (n : Nat) :
    quarter^[n] offset = 0 ↔ offset = 0 := by
  induction n generalizing offset with
  | zero =>
      rfl
  | succ n inductionHypothesis =>
      rw [Function.iterate_succ_apply, inductionHypothesis]
      unfold quarter
      simp only [Prod.ext_iff, Prod.fst_zero, Prod.snd_zero]
      omega

theorem quarter_add
    (first second : Int × Int)
    (n : Nat) :
    quarter^[n] (first + second) = quarter^[n] first + quarter^[n] second := by
  induction n generalizing first second with
  | zero =>
      rfl
  | succ n inductionHypothesis =>
      simp only [Function.iterate_succ_apply, ← inductionHypothesis]
      congr 1
      unfold quarter
      ext
      · simp only [Prod.snd_add, Prod.fst_add]
        omega
      · rfl

/-- Half a turn and none add up to nothing. -/
theorem quarter_half
    (offset : Int × Int)
    (n : Nat) :
    quarter^[n + 2] offset = -quarter^[n] offset := by
  induction n generalizing offset with
  | zero =>
      change quarter (quarter offset) = -offset
      rfl
  | succ n inductionHypothesis =>
      rw [Function.iterate_succ_apply, Function.iterate_succ_apply]
      exact inductionHypothesis _

theorem turnedOffsets_succ
    (offset : Int × Int)
    (start count : Nat) :
    turnedOffsets offset start (count + 1) =
      turnedOffsets offset start count + quarter^[start + count] offset := by
  simp [turnedOffsets, List.range_succ]

/-- Four turns of an offset, one after the other, add up to nothing. -/
theorem turnedOffsets_four
    (offset : Int × Int)
    (start count : Nat) :
    turnedOffsets offset start (count + 4) = turnedOffsets offset start count := by
  simp only [← Nat.add_assoc, turnedOffsets_succ, quarter_half]
  abel

/-- Only the turns behind the last complete round are left. -/
theorem turnedOffsets_mod
    (offset : Int × Int)
    (start count : Nat) :
    turnedOffsets offset start count = turnedOffsets offset start (count % 4) := by
  induction count using Nat.strongRecOn with
  | ind count inductionHypothesis =>
      by_cases short : count < 4
      · rw [Nat.mod_eq_of_lt short]
      · obtain ⟨less, rfl⟩ := Nat.exists_eq_add_of_le' (show 4 ≤ count by omega)
        rw [turnedOffsets_four, inductionHypothesis less (by omega), Nat.add_mod_right]

/-- An offset cancels out over complete rounds, and over nothing else. -/
theorem turnedOffsets_eq_zero_iff
    (offset : Int × Int)
    (start count : Nat) :
    turnedOffsets offset start count = 0 ↔ count % 4 = 0 ∨ offset = 0 := by
  rw [turnedOffsets_mod]
  have left : count % 4 = 0 ∨ count % 4 = 1 ∨ count % 4 = 2 ∨ count % 4 = 3 := by omega
  rcases left with complete | one | two | three
  · simp [complete, turnedOffsets]
  · have single : turnedOffsets offset start 1 = quarter^[start] offset := by
      simp [turnedOffsets]
    rw [one, single, quarter_zero_iff]
    simp
  · have pair :
        turnedOffsets offset start 2 = quarter^[start] (offset + quarter offset) := by
      rw [quarter_add, ← Function.iterate_succ_apply]
      simp [turnedOffsets, List.range_succ]
    rw [two, pair, quarter_zero_iff]
    unfold quarter
    simp only [Prod.ext_iff, Prod.fst_zero, Prod.snd_zero, Prod.fst_add, Prod.snd_add]
    omega
  · have triple : turnedOffsets offset start 3 = quarter^[start + 1] offset := by
      simp only [turnedOffsets_succ, quarter_half, Nat.add_zero]
      simp [turnedOffsets]
    rw [three, triple, quarter_zero_iff]
    simp

/-- Two components are no more than twice as large as the offset. -/
theorem turnedOffsets_bounds
    {bound : Nat}
    {offset : Int × Int}
    (first : offset.1.natAbs ≤ bound)
    (second : offset.2.natAbs ≤ bound)
    (start count : Nat) :
    (turnedOffsets offset start count).1.natAbs ≤ 3 * bound ∧
      (turnedOffsets offset start count).2.natAbs ≤ 3 * bound := by
  have turn :
      ∀ n, (quarter^[n] offset).1.natAbs ≤ bound ∧ (quarter^[n] offset).2.natAbs ≤ bound := by
    intro n
    induction n with
    | zero =>
        exact ⟨first, second⟩
    | succ n inductionHypothesis =>
        rw [Function.iterate_succ_apply']
        unfold quarter
        simp only [Int.natAbs_neg]
        exact inductionHypothesis.symm
  have few :
      ∀ rest, (turnedOffsets offset start rest).1.natAbs ≤ rest * bound ∧
        (turnedOffsets offset start rest).2.natAbs ≤ rest * bound := by
    intro rest
    induction rest with
    | zero =>
        simp [turnedOffsets]
    | succ rest inductionHypothesis =>
        have last := turn (start + rest)
        rw [turnedOffsets_succ, Nat.succ_mul]
        simp only [Prod.fst_add, Prod.snd_add]
        omega
  have most : count % 4 * bound ≤ 3 * bound := Nat.mul_le_mul_right _ (by omega)
  rw [turnedOffsets_mod]
  have bounds := few (count % 4)
  omega

/-- The sum of the group with number `m`. -/
def groupSum (downsample : Nat) (samples : List (Int × Int)) (m : Nat) : Int × Int :=
  ((samples.drop (m * downsample)).take downsample).sum

theorem groupSums_eq_map
    (downsample : Nat)
    (samples : List (Int × Int)) :
    groupSums downsample samples =
      (List.range (samples.length / downsample)).map (groupSum downsample samples) := by
  unfold groupSums groupsOf
  rw [List.map_map]
  rfl

/-- With an offset, samples are turned, and the offset is turned with them. -/
theorem sum_turned_offset
    (offset : Int × Int)
    (samples : List (Int × Int))
    (start : Nat) :
    ((samples.map (· + offset)).mapIdx (fun n sample => turned^[start + n] sample)).sum =
      (samples.mapIdx (fun n sample => turned^[start + n] sample)).sum +
        turnedOffsets offset start samples.length := by
  induction samples using List.reverseRecOn with
  | nil =>
      rfl
  | append_singleton samples sample inductionHypothesis =>
      simp only [List.map_append, List.map_cons, List.map_nil, List.mapIdx_concat,
        List.sum_append, List.sum_singleton, inductionHypothesis, List.length_map,
        List.length_append, List.length_singleton, turnedOffsets_succ, turned_offset]
      abel

/-- What is dropped in front counts as turns. -/
theorem drop_mixed
    (samples : List (Int × Int))
    (start count : Nat) :
    ((mixed samples).drop start).take count =
      ((samples.drop start).take count).mapIdx
        (fun n sample => turned^[start + n] sample) := by
  unfold mixed
  apply List.ext_getElem
  · simp
  · intro n inFirst inSecond
    simp

/-- The sum of a complete group, with an offset and without. -/
theorem groupSum_offset
    {downsample : Nat}
    (offset : Int × Int)
    {samples : List (Int × Int)}
    {m : Nat}
    (complete : m < samples.length / downsample) :
    groupSum downsample (mixed (samples.map (· + offset))) m =
      groupSum downsample (mixed samples) m +
        turnedOffsets offset (m * downsample) downsample := by
  have length : ((samples.drop (m * downsample)).take downsample).length = downsample := by
    apply @StreamingGroups.length_of_mem_groupsOf _ downsample samples
    exact List.mem_map.mpr ⟨m, List.mem_range.mpr complete, rfl⟩
  unfold groupSum
  rw [drop_mixed, drop_mixed, ← List.map_drop, ← List.map_take, sum_turned_offset, length]

/-- Stored sums are the same only if the sums are, as long as they are close. -/
theorem stored_add_eq_iff
    (sum : Int × Int)
    {difference : Int × Int}
    (first : difference.1.natAbs < 65536)
    (second : difference.2.natAbs < 65536) :
    stored (sum + difference) = stored sum ↔ difference = 0 := by
  have word :
      ∀ value : Int, ∀ more : Int, more.natAbs < 65536 →
        (Int16.ofInt (value + more) = Int16.ofInt value ↔ more = 0) := by
    intro value more small
    rw [← Int16.toInt_inj, Int16.toInt_ofInt, Int16.toInt_ofInt]
    simp only [Int16.size, Int.bmod]
    omega
  unfold stored
  simp only [List.cons.injEq, and_true, Prod.fst_add, Prod.snd_add]
  rw [word _ _ first, word _ _ second, Prod.ext_iff]
  rfl

/-- The stored sums of all groups. -/
theorem flatMap_stored_eq_iff
    {first second : Nat → Int × Int}
    (count : Nat) :
    ((List.range count).map first).flatMap stored =
        ((List.range count).map second).flatMap stored ↔
      ∀ m < count, stored (first m) = stored (second m) := by
  induction count with
  | zero =>
      simp
  | succ count inductionHypothesis =>
      simp only [List.range_succ, List.map_append, List.flatMap_append, List.map_cons,
        List.map_nil, List.flatMap_singleton]
      constructor
      · intro same m below
        obtain ⟨front, last⟩ := List.append_inj' same rfl
        have earlier := inductionHypothesis.mp front
        rcases Nat.lt_succ_iff_lt_or_eq.mp below with before | rfl
        · exact earlier m before
        · exact last
      · intro all
        rw [inductionHypothesis.mpr (fun m below => all m (by omega)),
          all count (by omega)]

/-- Samples with an offset that are values of bytes are not far from those without. -/
theorem offset_small
    {offset : Int × Int}
    {first second : List UInt8}
    (moved : samplesOf second = (samplesOf first).map (· + offset))
    (some : samplesOf first ≠ []) :
    offset.1.natAbs ≤ 255 ∧ offset.2.natAbs ≤ 255 := by
  obtain ⟨sample, member⟩ := List.exists_mem_of_ne_nil _ some
  have here := samplesOf_bounds member
  have there : sample + offset ∈ samplesOf second := by
    rw [moved]
    exact List.mem_map_of_mem member
  have bounds := samplesOf_bounds there
  simp only [Prod.fst_add, Prod.snd_add] at bounds
  omega

/--
For every capture in blocks of whole turns, and every offset that leaves its samples
values of bytes: the offset makes no difference to what `low_pass` stores if and only if
`downsample` is a multiple of four, or there is no offset.
-/
theorem lowPass_offset_iff
    {d : DemodState}
    (fresh : Fresh d)
    (positive : 0 < d.downsample)
    {blocks others : List Block}
    (whole : ∀ block ∈ blocks, block.len % 8 = 0)
    (wholeOthers : ∀ block ∈ others, block.len % 8 = 0)
    {offset : Int × Int}
    (moved :
      samplesOf (captured others) = (samplesOf (captured blocks)).map (· + offset))
    (enough : d.downsample ≤ (samplesOf (captured blocks)).length) :
    (filterBlocks ⟨false, 0⟩ d others).1 = (filterBlocks ⟨false, 0⟩ d blocks).1 ↔
      d.downsample % 4 = 0 ∨ offset = 0 := by
  generalize known : samplesOf (captured blocks) = samples at moved enough
  have small : offset.1.natAbs ≤ 255 ∧ offset.2.natAbs ≤ 255 := by
    apply @offset_small offset (captured blocks) (captured others)
    · rw [moved, known]
    · rw [known]
      intro empty
      rw [empty, List.length_nil] at enough
      omega
  have outputs := (filterBlocks_groups ⟨false, 0⟩ fresh positive
    (fun block member => show block.len % 2 = 0 by have := whole block member; omega)).1
  have outputsOthers := (filterBlocks_groups ⟨false, 0⟩ fresh positive
    (fun block member => show block.len % 2 = 0 by have := wholeOthers block member; omega)).1
  have sameLength : (mixed (samples.map (· + offset))).length = (mixed samples).length := by
    simp [mixed]
  have length : (mixed samples).length = samples.length := by
    simp [mixed]
  rw [outputs, outputsOthers, runSamples_mixed whole, runSamples_mixed wholeOthers, moved,
    known, groupSums_eq_map, groupSums_eq_map, sameLength, length, flatMap_stored_eq_iff]
  have group :
      ∀ m < samples.length / d.downsample,
        (stored (groupSum d.downsample (mixed (samples.map (· + offset))) m) =
            stored (groupSum d.downsample (mixed samples) m) ↔
          d.downsample % 4 = 0 ∨ offset = 0) := by
    intro m complete
    have bounds :=
      turnedOffsets_bounds small.1 small.2 (m * d.downsample) d.downsample
    rw [groupSum_offset offset complete, stored_add_eq_iff _ (by omega) (by omega),
      turnedOffsets_eq_zero_iff]
  constructor
  · intro all
    have first : 0 < samples.length / d.downsample := Nat.div_pos enough positive
    exact (group 0 first).mp (all 0 first)
  · intro cancels m complete
    exact (group m complete).mpr cancels

/-- Sixteen bytes at 200 and at 210, with four samples to a group. -/
theorem lowPass_offset_four :
    (filterBlocks ⟨false, 0⟩ (initialDemod 4) [⟨fun _ => 210, 16⟩]).1 =
        (filterBlocks ⟨false, 0⟩ (initialDemod 4) [⟨fun _ => 200, 16⟩]).1 ↔
      4 % 4 = 0 ∨ ((10 : Int), (10 : Int)) = 0 :=
  @lowPass_offset_iff (initialDemod 4) ⟨rfl, rfl, rfl⟩ (by decide) [⟨fun _ => 200, 16⟩]
    [⟨fun _ => 210, 16⟩] (by simp) (by simp) (10, 10) (by decide) (by decide)

end LibRtlSdr.RtlFm
