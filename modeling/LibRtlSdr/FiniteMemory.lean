import Mathlib.Data.List.Basic
import Mathlib.Order.Lattice

namespace LibRtlSdr.FiniteMemory

/-!
# Filters of finite memory on a stream that arrives in blocks

A filter has one output for every two values of its stream, and an output depends on
the last `memory` values.  The stream arrives in blocks, of which the filter may keep
less than the whole for the outputs of later blocks.  The outputs are those of the
whole stream exactly when the first ones of each block do not change with what the
earlier blocks have lost.
-/

variable {Value Output : Type}

/-- The output depends on the last values only. -/
def Recent (memory : Nat) (output : List Value → Output) : Prop :=
  ∀ first second recent : List Value,
    memory ≤ recent.length →
      output (first ++ recent) = output (second ++ recent)

/-- The outputs of a block behind the values before it. -/
def blockOutputs
    (output : List Value → Output)
    (before block : List Value) :
    List Output :=
  (List.range (block.length / 2)).map
    (fun t => output (before ++ block.take (2 * t + 1)))

/-- The outputs of the blocks, with what is kept of each. -/
def outputs
    (output : List Value → Output)
    (keep : List Value → List Value) :
    List Value → List (List Value) → List Output
  | _, [] =>
      []
  | before, block :: rest =>
      blockOutputs output before block ++
        outputs output keep (before ++ keep block) rest

/-- What blocks leave for those behind them. -/
def kept
    (keep : List Value → List Value)
    (blocks : List (List Value)) :
    List Value :=
  (blocks.map keep).flatten

/-- The outputs of a block in two pieces. -/
theorem blockOutputs_append
    (output : List Value → Output)
    (before : List Value)
    {first : List Value}
    (even : first.length % 2 = 0)
    (second : List Value) :
    blockOutputs output before (first ++ second) =
      blockOutputs output before first ++
        blockOutputs output (before ++ first) second := by
  have count :
      (first ++ second).length / 2 = first.length / 2 + second.length / 2 := by
    rw [List.length_append]
    omega
  unfold blockOutputs
  rw [count, List.range_add, List.map_append, List.map_map]
  congr 1
  · apply List.map_congr_left
    intro t inRange
    have inFirst := List.mem_range.mp inRange
    rw [List.take_append_of_le_length (by omega)]
  · apply List.map_congr_left
    intro t _
    have place : 2 * (first.length / 2 + t) + 1 = first.length + (2 * t + 1) := by
      omega
    rw [Function.comp_apply, place, List.take_length_add_append, List.append_assoc]

/-- When the blocks are kept whole, their boundaries do not matter. -/
theorem outputs_whole
    (output : List Value → Output)
    (before : List Value)
    {blocks : List (List Value)}
    (even : ∀ block ∈ blocks, block.length % 2 = 0) :
    outputs output id before blocks =
      blockOutputs output before blocks.flatten := by
  induction blocks generalizing before with
  | nil =>
      simp [outputs, blockOutputs]
  | cons block rest inductionHypothesis =>
      rw [List.forall_mem_cons] at even
      rw [outputs, List.flatten_cons, blockOutputs_append _ _ even.1,
        inductionHypothesis _ even.2]
      rfl

/-- Behind as many values as the filter remembers, what was before does not matter. -/
theorem blockOutputs_eq_iff
    {memory : Nat}
    {output : List Value → Output}
    (recent : Recent memory output)
    (first second block : List Value) :
    blockOutputs output first block = blockOutputs output second block ↔
      ∀ t, 2 * t + 1 < memory → 2 * t + 1 < block.length →
        output (first ++ block.take (2 * t + 1)) =
          output (second ++ block.take (2 * t + 1)) := by
  unfold blockOutputs
  rw [List.map_inj_left]
  constructor
  · intro same t _ inBlock
    exact same t (List.mem_range.mpr (by omega))
  · intro same t inRange
    have inBlock := List.mem_range.mp inRange
    rcases Nat.lt_or_ge (2 * t + 1) memory with short | long
    · exact same t short (by omega)
    · apply recent
      rw [List.length_take]
      omega

/--
The outputs are those of the whole stream exactly when the first ones of each block
are the same behind what was kept and behind everything.
-/
theorem outputs_eq_iff
    {memory : Nat}
    {output : List Value → Output}
    (recent : Recent memory output)
    (keep : List Value → List Value)
    (first second : List Value)
    (blocks : List (List Value)) :
    outputs output keep first blocks = outputs output id second blocks ↔
      ∀ earlier block later, blocks = earlier ++ block :: later →
        ∀ t, 2 * t + 1 < memory → 2 * t + 1 < block.length →
          output (first ++ kept keep earlier ++ block.take (2 * t + 1)) =
            output (second ++ earlier.flatten ++ block.take (2 * t + 1)) := by
  induction blocks generalizing first second with
  | nil =>
      simp [outputs]
  | cons block rest inductionHypothesis =>
      have split :
          outputs output keep first (block :: rest) =
              outputs output id second (block :: rest) ↔
            blockOutputs output first block = blockOutputs output second block ∧
              outputs output keep (first ++ keep block) rest =
                outputs output id (second ++ block) rest := by
        constructor
        · intro same
          exact List.append_inj same (by simp [blockOutputs])
        · rintro ⟨sameBlock, sameRest⟩
          rw [outputs, outputs, sameBlock, sameRest]
          rfl
      rw [split, blockOutputs_eq_iff recent, inductionHypothesis]
      constructor
      · rintro ⟨sameBlock, sameRest⟩ earlier current later isSplit
        cases earlier with
        | nil =>
            obtain ⟨rfl, rfl⟩ := List.cons.inj isSplit
            simpa [kept] using sameBlock
        | cons head between =>
            obtain ⟨rfl, restSplit⟩ := List.cons.inj isSplit
            simpa [kept] using sameRest between current later restSplit
      · intro same
        constructor
        · simpa [kept] using same [] block rest rfl
        · intro earlier current later isSplit
          have atCurrent :=
            same (block :: earlier) current later (by rw [isSplit]; rfl)
          simpa [kept] using atCurrent

end LibRtlSdr.FiniteMemory
