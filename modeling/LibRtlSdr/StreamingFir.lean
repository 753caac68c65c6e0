import Mathlib.Algebra.BigOperators.Group.Finset.Basic
import Mathlib.Algebra.Module.Defs

namespace LibRtlSdr.StreamingFir

/-!
# Decimating filters over a stream that arrives in blocks

A finite impulse response filter needs some samples before the current one.
When the stream arrives block by block, a filter keeps a history in front of
each block and carries part of it over to the next.  The outputs are those of
the filter on the whole stream exactly when, at each boundary, what was carried
gives the same partial sums as the true end of the block.  Samples are elements
of a module over the coefficients.
-/

variable {R V : Type} [Semiring R] [AddCommGroup V] [Module R V]

/-- The filter on the window of `length` samples from `start`. -/
def tap
    (coeff : Nat → R)
    (length : Nat)
    (signal : Nat → V)
    (start : Nat) :
    V :=
  ∑ i ∈ Finset.range length, coeff i • signal (start + i)

/-- The windows at which a filter that keeps one output in `dsample` has an output. -/
def emitted (dsample count : Nat) : List Nat :=
  (List.range count).filter (fun m => (m + 1) % dsample = 0)

/-- A block with its history in front. -/
def joined
    (overlap : Nat)
    (history block : Nat → V) :
    Nat → V :=
  fun k => if k < overlap then history k else block (k - overlap)

/-- The samples of the blocks, one after the other. -/
def concatenated
    (size : Nat)
    (blocks : List (Nat → V)) :
    List V :=
  blocks.flatMap (fun block => (List.range size).map block)

/-- The whole stream, with its past in front. -/
def stream
    (overlap size : Nat)
    (past : Nat → V)
    (blocks : List (Nat → V)) :
    Nat → V :=
  joined overlap past (fun k => (concatenated size blocks).getD k 0)

/-- The outputs of the filter on the whole stream. -/
def streamOutputs
    (coeff : Nat → R)
    (overlap dsample size : Nat)
    (past : Nat → V)
    (blocks : List (Nat → V)) :
    List V :=
  (emitted dsample (size * blocks.length)).map
    (tap coeff overlap (stream overlap size past blocks))

/-- The outputs block by block, with what `carry` leaves as the next history. -/
def blockOutputs
    (coeff : Nat → R)
    (overlap dsample size : Nat)
    (carry : (Nat → V) → Nat → V) :
    (Nat → V) → List (Nat → V) → List V
  | _, [] =>
      []
  | history, block :: rest =>
      (emitted dsample size).map
          (tap coeff overlap (joined overlap history block)) ++
        blockOutputs coeff overlap dsample size carry (carry block) rest

/-- The last samples of a block, those that the next windows need. -/
def blockEnd
    (overlap size : Nat)
    (block : Nat → V) :
    Nat → V :=
  fun k => block (size - overlap + k)

/--
Two histories give the same outputs in front of any block: the partial sums of
all windows that have an output and reach into the history agree.
-/
def SameOverlap
    (coeff : Nat → R)
    (overlap dsample : Nat)
    (first second : Nat → V) : Prop :=
  ∀ m ∈ emitted dsample overlap,
    tap coeff (overlap - m) first m = tap coeff (overlap - m) second m

section Windows

variable (coeff : Nat → R)

/-- The filter looks at its window only. -/
theorem tap_congr
    {length firstStart secondStart : Nat}
    {first second : Nat → V}
    (same :
      ∀ i < length, first (firstStart + i) = second (secondStart + i)) :
    tap coeff length first firstStart =
      tap coeff length second secondStart := by
  apply Finset.sum_congr rfl
  intro i member
  rw [same i (Finset.mem_range.mp member)]

/-- A window that starts in the history has a part in it and a part in the block. -/
theorem tap_joined_of_lt
    {overlap m : Nat}
    (inHistory : m < overlap)
    (history block : Nat → V) :
    tap coeff overlap (joined overlap history block) m =
      tap coeff (overlap - m) history m +
        ∑ i ∈ Finset.range m, coeff (overlap - m + i) • block i := by
  have parts : overlap = overlap - m + m := by omega
  unfold tap
  rw [congrArg Finset.range parts, Finset.sum_range_add]
  congr 1
  · apply Finset.sum_congr rfl
    intro i member
    rw [Finset.mem_range] at member
    rw [joined, if_pos (by omega)]
  · apply Finset.sum_congr rfl
    intro i _
    rw [joined, if_neg (by omega)]
    congr 2
    omega

/-- A window that starts behind the history does not depend on it. -/
theorem tap_joined_of_le
    {overlap m : Nat}
    (inBlock : overlap ≤ m)
    (first second block : Nat → V) :
    tap coeff overlap (joined overlap first block) m =
      tap coeff overlap (joined overlap second block) m := by
  apply tap_congr
  intro i _
  rw [joined, if_neg (by omega), joined, if_neg (by omega)]

theorem mem_emitted_iff {dsample count m : Nat} :
    m ∈ emitted dsample count ↔ m < count ∧ (m + 1) % dsample = 0 := by
  simp [emitted]

/-- Two histories agree in front of a block exactly when their partial sums do. -/
theorem outputs_joined_eq_iff
    {overlap dsample size : Nat}
    (fits : overlap ≤ size)
    (first second block : Nat → V) :
    (emitted dsample size).map
        (tap coeff overlap (joined overlap first block)) =
      (emitted dsample size).map
        (tap coeff overlap (joined overlap second block)) ↔
      SameOverlap coeff overlap dsample first second := by
  rw [List.map_inj_left]
  constructor
  · intro sameOutputs m member
    obtain ⟨below, isEmitted⟩ := mem_emitted_iff.mp member
    have same :=
      sameOutputs m
        (mem_emitted_iff.mpr ⟨Nat.lt_of_lt_of_le below fits, isEmitted⟩)
    rw [tap_joined_of_lt coeff below, tap_joined_of_lt coeff below] at same
    exact add_right_cancel same
  · intro sameOverlap m member
    obtain ⟨_, isEmitted⟩ := mem_emitted_iff.mp member
    by_cases below : m < overlap
    · rw [tap_joined_of_lt coeff below, tap_joined_of_lt coeff below,
        sameOverlap m (mem_emitted_iff.mpr ⟨below, isEmitted⟩)]
    · exact tap_joined_of_le coeff (Nat.le_of_not_lt below) _ _ _

/-- After a whole number of periods the emitted windows repeat. -/
theorem emitted_add
    {dsample size : Nat}
    (period : dsample ∣ size)
    (count : Nat) :
    emitted dsample (size + count) =
      emitted dsample size ++
        (emitted dsample count).map (fun m => size + m) := by
  have shift (m : Nat) :
      (size + m + 1) % dsample = (m + 1) % dsample := by
    obtain ⟨turns, isPeriod⟩ := period
    rw [isPeriod, Nat.add_assoc, Nat.mul_add_mod]
  unfold emitted
  rw [List.range_add, List.filter_append, List.filter_map]
  congr 2
  apply List.filter_congr
  intro m _
  simp [shift]

/-- Each period has the same number of outputs. -/
theorem length_emitted_mul
    {dsample size : Nat}
    (period : dsample ∣ size)
    (turns : Nat) :
    (emitted dsample (size * turns)).length =
      turns * (emitted dsample size).length := by
  induction turns with
  | zero =>
      simp [emitted]
  | succ turns inductionHypothesis =>
      rw [Nat.mul_succ, Nat.add_comm, emitted_add period,
        List.length_append, List.length_map, inductionHypothesis,
        Nat.succ_mul, Nat.add_comm]

end Windows

section Stream

variable
  {overlap size : Nat}
  {past block : Nat → V}
  {rest : List (Nat → V)}

/-- The first block is the start of the stream. -/
theorem stream_cons_of_lt
    {k : Nat}
    (inFirst : k < overlap + size) :
    stream overlap size past (block :: rest) k =
      joined overlap past block k := by
  unfold stream joined
  split_ifs with inPast
  · rfl
  · have inBlock : k - overlap < size := by omega
    simp [concatenated, List.getD, List.getElem?_append, inBlock]

/-- Behind the first block the stream is that of the other blocks. -/
theorem stream_cons_add
    (fits : overlap ≤ size)
    (k : Nat) :
    stream overlap size past (block :: rest) (size + k) =
      stream overlap size (blockEnd overlap size block) rest k := by
  by_cases inEnd : k < overlap
  · rw [stream_cons_of_lt (by omega), stream, joined, joined,
      if_neg (by omega), if_pos inEnd, blockEnd]
    congr 1
    omega
  · have behind : size + k - overlap = size + (k - overlap) := by omega
    have notFirst : ¬ size + (k - overlap) < size := by omega
    unfold stream joined
    rw [if_neg (by omega), if_neg inEnd, behind]
    simp [concatenated, List.getD, List.getElem?_append, notFirst]

/-- The outputs on the stream are those of the first block and those of the others. -/
theorem streamOutputs_cons
    (coeff : Nat → R)
    {dsample : Nat}
    (period : dsample ∣ size)
    (fits : overlap ≤ size) :
    streamOutputs coeff overlap dsample size past (block :: rest) =
      (emitted dsample size).map
          (tap coeff overlap (joined overlap past block)) ++
        streamOutputs coeff overlap dsample size
          (blockEnd overlap size block) rest := by
  have windows :
      size * (block :: rest).length = size + size * rest.length := by
    rw [List.length_cons, Nat.mul_succ, Nat.add_comm]
  unfold streamOutputs
  rw [windows, emitted_add period, List.map_append, List.map_map]
  congr 1
  · apply List.map_congr_left
    intro m member
    have below := (mem_emitted_iff.mp member).1
    apply tap_congr
    intro i inWindow
    exact stream_cons_of_lt (by omega)
  · apply List.map_congr_left
    intro m _
    apply tap_congr
    intro i _
    rw [Nat.add_assoc]
    exact stream_cons_add fits (m + i)

variable
  {coeff : Nat → R}
  {dsample : Nat}
  {carry : (Nat → V) → Nat → V}
  {history : Nat → V}

/-- Only the samples in front of the first block are read of a history. -/
theorem blockOutputs_congr_history
    {other : Nat → V}
    (same : ∀ k < overlap, history k = other k)
    (blocks : List (Nat → V)) :
    blockOutputs coeff overlap dsample size carry history blocks =
      blockOutputs coeff overlap dsample size carry other blocks := by
  cases blocks with
  | nil =>
      rfl
  | cons block rest =>
      have sameJoined :
          joined overlap history block = joined overlap other block := by
        funext k
        unfold joined
        split_ifs with inHistory
        · exact same k inHistory
        · rfl
      rw [blockOutputs, blockOutputs, sameJoined]

/-- The first block tells whether the histories agree; the rest is the others' matter. -/
theorem blockOutputs_cons_eq_iff
    (period : dsample ∣ size)
    (fits : overlap ≤ size) :
    blockOutputs coeff overlap dsample size carry history
          (block :: rest) =
        streamOutputs coeff overlap dsample size past (block :: rest) ↔
      SameOverlap coeff overlap dsample history past ∧
        blockOutputs coeff overlap dsample size carry (carry block) rest =
          streamOutputs coeff overlap dsample size
            (blockEnd overlap size block) rest := by
  rw [blockOutputs, streamOutputs_cons coeff period fits,
    ← outputs_joined_eq_iff coeff fits history past block]
  constructor
  · intro same
    exact List.append_inj same (by simp)
  · rintro ⟨sameFirst, sameRest⟩
    rw [sameFirst, sameRest]

/--
Filtering block by block is filtering the stream exactly when, at every boundary
between two blocks, the carried history agrees with the end of the block.
-/
theorem blockOutputs_eq_streamOutputs_iff
    (period : dsample ∣ size)
    (fits : overlap ≤ size)
    (sameStart : SameOverlap coeff overlap dsample history past)
    (blocks : List (Nat → V)) :
    blockOutputs coeff overlap dsample size carry history blocks =
        streamOutputs coeff overlap dsample size past blocks ↔
      ∀ block ∈ blocks.dropLast,
        SameOverlap coeff overlap dsample (carry block)
          (blockEnd overlap size block) := by
  induction blocks generalizing history past with
  | nil =>
      simp [blockOutputs, streamOutputs, emitted]
  | cons block rest inductionHypothesis =>
      rw [blockOutputs_cons_eq_iff period fits]
      cases rest with
      | nil =>
          simp [blockOutputs, streamOutputs, emitted, sameStart]
      | cons second later =>
          rw [List.dropLast_cons_cons, List.forall_mem_cons]
          constructor
          · rintro ⟨_, sameRest⟩
            have sameCarry :=
              ((blockOutputs_cons_eq_iff period fits).mp sameRest).1
            exact ⟨sameCarry, (inductionHypothesis sameCarry).mp sameRest⟩
          · rintro ⟨sameCarry, others⟩
            exact ⟨sameStart, (inductionHypothesis sameCarry).mpr others⟩

end Stream

end LibRtlSdr.StreamingFir
