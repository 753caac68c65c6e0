import Mathlib.Data.List.Basic

namespace LibRtlSdr.ConsecutivePairs

/-!
# Each value of a stream with the one before it

The stream arrives in blocks, and the last value of a block is kept for the first pair
of the next one.  Where the first pair of a block is treated apart from the pairs
inside it, the boundaries matter exactly when the two treatments differ on one of the
first pairs.
-/

variable {Value Output : Type}

/-- Each value and the one before it; `before` stands before the first one. -/
def pairs : Value → List Value → List (Value × Value)
  | _, [] =>
      []
  | before, value :: rest =>
      (value, before) :: pairs value rest

/-- The first pair of each block. -/
def firstPairs : Value → List (List Value) → List (Value × Value)
  | _, [] =>
      []
  | before, block :: rest =>
      (pairs before block).take 1 ++ firstPairs (block.getLastD before) rest

/-- The outputs of a block whose first pair is treated apart. -/
def blockOutputs
    (first inside : Value × Value → Output)
    (before : Value)
    (block : List Value) :
    List Output :=
  ((pairs before block).take 1).map first ++ ((pairs before block).drop 1).map inside

/-- The outputs of all blocks. -/
def outputs (first inside : Value × Value → Output) :
    Value → List (List Value) → List Output
  | _, [] =>
      []
  | before, block :: rest =>
      blockOutputs first inside before block ++
        outputs first inside (block.getLastD before) rest

theorem pairs_append
    (before : Value)
    (first second : List Value) :
    pairs before (first ++ second) =
      pairs before first ++ pairs (first.getLastD before) second := by
  induction first generalizing before with
  | nil =>
      rfl
  | cons value rest inductionHypothesis =>
      rw [List.cons_append, pairs, inductionHypothesis, pairs, List.getLastD_cons]
      rfl

@[simp] theorem length_pairs
    (before : Value)
    (values : List Value) :
    (pairs before values).length = values.length := by
  induction values generalizing before with
  | nil =>
      rfl
  | cons value rest inductionHypothesis =>
      rw [pairs, List.length_cons, inductionHypothesis, List.length_cons]

/-- The pairs by their places. -/
theorem pairs_eq_zip
    (before : Value)
    (values : List Value) :
    pairs before values = values.zip (before :: values) := by
  induction values generalizing before with
  | nil =>
      rfl
  | cons value rest inductionHypothesis =>
      rw [pairs, inductionHypothesis, List.zip_cons_cons]

/-- The pairs of a stream whose values are translated. -/
theorem pairs_map
    {Other : Type}
    (translate : Value → Other)
    (before : Value)
    (values : List Value) :
    pairs (translate before) (values.map translate) =
      (pairs before values).map (fun pair => (translate pair.1, translate pair.2)) := by
  induction values generalizing before with
  | nil =>
      rfl
  | cons value rest inductionHypothesis =>
      rw [List.map_cons, pairs, inductionHypothesis, pairs, List.map_cons]

/-- A value of a pair is one of the stream, or stands before it. -/
theorem mem_of_mem_pairs
    {before : Value}
    {values : List Value}
    {pair : Value × Value}
    (member : pair ∈ pairs before values) :
    pair.1 ∈ values ∧ (pair.2 = before ∨ pair.2 ∈ values) := by
  rw [pairs_eq_zip] at member
  have places := List.of_mem_zip member
  exact ⟨places.1, List.mem_cons.mp places.2⟩

/-- Outputs of a block are those of its pairs when the first one makes no difference. -/
theorem blockOutputs_eq_iff
    (first inside : Value × Value → Output)
    (before : Value)
    (block : List Value) :
    blockOutputs first inside before block = (pairs before block).map inside ↔
      ∀ pair ∈ (pairs before block).take 1, first pair = inside pair := by
  have whole :
      (pairs before block).map inside =
        ((pairs before block).take 1).map inside ++
          ((pairs before block).drop 1).map inside := by
    rw [← List.map_append, List.take_append_drop]
  unfold blockOutputs
  rw [whole, List.append_left_inj]
  exact List.map_inj_left

/-- The boundaries matter exactly where the first pair of a block makes a difference. -/
theorem outputs_eq_iff
    (first inside : Value × Value → Output)
    (before : Value)
    (blocks : List (List Value)) :
    outputs first inside before blocks = (pairs before blocks.flatten).map inside ↔
      ∀ pair ∈ firstPairs before blocks, first pair = inside pair := by
  induction blocks generalizing before with
  | nil =>
      simp [outputs, firstPairs, pairs]
  | cons block rest inductionHypothesis =>
      have length :
          (blockOutputs first inside before block).length =
            ((pairs before block).map inside).length := by
        unfold blockOutputs
        rw [List.length_append, List.length_map, List.length_map, List.length_map,
          ← List.length_append, List.take_append_drop]
      rw [outputs, firstPairs, List.flatten_cons, pairs_append, List.map_append,
        List.forall_mem_append, ← blockOutputs_eq_iff, ← inductionHypothesis]
      constructor
      · intro same
        exact List.append_inj same length
      · rintro ⟨sameBlock, sameRest⟩
        rw [sameBlock, sameRest]

end LibRtlSdr.ConsecutivePairs
