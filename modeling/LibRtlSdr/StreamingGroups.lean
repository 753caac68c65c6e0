import Mathlib.Algebra.BigOperators.Group.List.Basic

namespace LibRtlSdr.StreamingGroups

/-!
# Sums of groups in a stream that arrives in blocks

A stream is cut into groups of `size` values and each complete group is replaced
by its sum.  The values arrive block by block; the sum of the group under way and
the number of values in it are carried over to the next block.  The sums are
those of the whole stream, wherever the blocks end.
-/

variable {V : Type} [AddMonoid V]

/-- The group under way: how many values it has, and their sum. -/
structure Carried (V : Type) where
  phase : Nat
  sum : V

/-- No value of the next group has arrived. -/
def Carried.empty : Carried V where
  phase := 0
  sum := 0

/-- The sums that a block completes, and what is carried behind it. -/
def feed (size : Nat) : Carried V → List V → List V × Carried V
  | carried, [] =>
      ([], carried)
  | carried, value :: rest =>
      if carried.phase + 1 < size then
        feed size ⟨carried.phase + 1, carried.sum + value⟩ rest
      else
        let later := feed size .empty rest
        ((carried.sum + value) :: later.1, later.2)

/-- Block after block. -/
def feedBlocks (size : Nat) :
    Carried V → List (List V) → List V × Carried V
  | carried, [] =>
      ([], carried)
  | carried, block :: rest =>
      let first := feed size carried block
      let later := feedBlocks size first.2 rest
      (first.1 ++ later.1, later.2)

/-- The complete groups of a stream. -/
def groupsOf {Value : Type} (size : Nat) (values : List Value) :
    List (List Value) :=
  (List.range (values.length / size)).map
    (fun k => (values.drop (k * size)).take size)

/-- A value that does not complete the group. -/
theorem feed_cons_within
    {size : Nat}
    {carried : Carried V}
    (value : V)
    (rest : List V)
    (within : carried.phase + 1 < size) :
    feed size carried (value :: rest) =
      feed size ⟨carried.phase + 1, carried.sum + value⟩ rest := by
  rw [feed, if_pos within]

/-- A value that completes the group. -/
theorem feed_cons_complete
    {size : Nat}
    {carried : Carried V}
    (value : V)
    (rest : List V)
    (complete : ¬ carried.phase + 1 < size) :
    feed size carried (value :: rest) =
      ((carried.sum + value) :: (feed size .empty rest).1,
        (feed size .empty rest).2) := by
  rw [feed, if_neg complete]

/-- A block in two pieces. -/
theorem feed_append
    (size : Nat)
    (carried : Carried V)
    (first second : List V) :
    feed size carried (first ++ second) =
      ((feed size carried first).1 ++
          (feed size (feed size carried first).2 second).1,
        (feed size (feed size carried first).2 second).2) := by
  induction first generalizing carried with
  | nil =>
      rfl
  | cons value rest inductionHypothesis =>
      rw [List.cons_append]
      by_cases within : carried.phase + 1 < size
      · rw [feed_cons_within _ _ within, feed_cons_within _ _ within]
        exact inductionHypothesis _
      · rw [feed_cons_complete _ _ within, feed_cons_complete _ _ within,
          inductionHypothesis]
        rfl

/-- The boundaries between the blocks do not matter. -/
theorem feedBlocks_eq
    (size : Nat)
    (carried : Carried V)
    (blocks : List (List V)) :
    feedBlocks size carried blocks =
      feed size carried blocks.flatten := by
  induction blocks generalizing carried with
  | nil =>
      rfl
  | cons block rest inductionHypothesis =>
      simp only [feedBlocks, List.flatten_cons]
      rw [feed_append, inductionHypothesis]

/-- A block with the values that are missing completes the group under way. -/
theorem feed_ne_nil
    {size : Nat}
    {carried : Carried V}
    {values : List V}
    (enough : size ≤ carried.phase + values.length)
    (nonempty : values ≠ []) :
    (feed size carried values).1 ≠ [] := by
  induction values generalizing carried with
  | nil =>
      exact absurd rfl nonempty
  | cons value rest inductionHypothesis =>
      rw [List.length_cons] at enough
      by_cases within : carried.phase + 1 < size
      · rw [feed_cons_within _ _ within]
        apply inductionHypothesis
        · simp only
          omega
        · intro ended
          rw [ended, List.length_nil] at enough
          omega
      · rw [feed_cons_complete _ _ within]
        exact List.cons_ne_nil _ _

/-- A block that does not complete the group under way. -/
theorem feed_of_short
    {size : Nat}
    (carried : Carried V)
    {values : List V}
    (short : carried.phase + values.length < size) :
    feed size carried values =
      ([], ⟨carried.phase + values.length, carried.sum + values.sum⟩) := by
  induction values generalizing carried with
  | nil =>
      simp [feed]
  | cons value rest inductionHypothesis =>
      rw [List.length_cons] at short
      have within : carried.phase + 1 < size := by omega
      rw [feed_cons_within _ _ within,
        inductionHypothesis _ (by simp only; omega)]
      simp [Nat.add_comm 1, add_assoc]

/-- Values that complete the group under way exactly. -/
theorem feed_of_exact
    {size : Nat}
    (carried : Carried V)
    {values : List V}
    (within : carried.phase < size)
    (exact : carried.phase + values.length = size) :
    feed size carried values =
      ([carried.sum + values.sum], .empty) := by
  induction values generalizing carried with
  | nil =>
      rw [List.length_nil] at exact
      omega
  | cons value rest inductionHypothesis =>
      rw [List.length_cons] at exact
      by_cases more : carried.phase + 1 < size
      · rw [feed_cons_within _ _ more,
          inductionHypothesis _ more (by simp only; omega)]
        simp [add_assoc]
      · have last : rest = [] := by
          apply List.eq_nil_of_length_eq_zero
          omega
        rw [feed_cons_complete _ _ more, last]
        simp [feed]

/-- The groups of a stream that begins with a complete group. -/
theorem groupsOf_append
    {Value : Type}
    {size : Nat}
    (positive : 0 < size)
    {group : List Value}
    (complete : group.length = size)
    (rest : List Value) :
    groupsOf size (group ++ rest) = group :: groupsOf size rest := by
  have count :
      (group ++ rest).length / size = rest.length / size + 1 := by
    rw [List.length_append, complete, Nat.add_div_left _ positive]
  unfold groupsOf
  rw [count, List.range_succ_eq_map, List.map_cons, List.map_map]
  congr 1
  · simp [← complete]
  · apply List.map_congr_left
    intro k _
    have skipped : (k + 1) * size = group.length + k * size := by
      rw [complete, Nat.add_mul, Nat.one_mul, Nat.add_comm]
    simp only [Function.comp_apply, Nat.succ_eq_add_one, skipped,
      List.drop_append, List.drop_eq_nil_of_le (Nat.le_add_right _ _),
      List.nil_append, Nat.add_sub_cancel_left]

/--
From the beginning of a group: the sums are those of the complete groups, and the
values behind them are carried.
-/
theorem feed_empty
    {size : Nat}
    (positive : 0 < size)
    (values : List V) :
    feed size .empty values =
      ((groupsOf size values).map List.sum,
        ⟨values.length % size,
          (values.drop (values.length / size * size)).sum⟩) := by
  induction length : values.length using Nat.strongRecOn
    generalizing values with
  | ind count inductionHypothesis =>
      by_cases short : count < size
      · have fed :=
          @feed_of_short V _ size .empty values
            (by simpa [Carried.empty, length] using short)
        rw [fed]
        simp [groupsOf, Carried.empty, length, Nat.div_eq_of_lt short,
          Nat.mod_eq_of_lt short]
      · have complete : (values.take size).length = size := by
          rw [List.length_take]
          omega
        have fed :=
          @feed_of_exact V _ size .empty (values.take size) positive
            (by rw [complete]; exact Nat.zero_add _)
        have later :=
          inductionHypothesis (count - size) (by omega)
            (values.drop size) (by rw [List.length_drop, length])
        have groups :=
          groupsOf_append positive complete (values.drop size)
        rw [List.take_append_drop] at groups
        have remainder : (count - size) % size = count % size :=
          (Nat.mod_eq_sub_mod (by omega)).symm
        have quotient : count / size = (count - size) / size + 1 :=
          Nat.div_eq_sub_div positive (by omega)
        have skipped :
            size + (count - size) / size * size = count / size * size := by
          rw [quotient, Nat.add_mul, Nat.one_mul, Nat.add_comm]
        rw [groups, ← List.take_append_drop size values, feed_append, fed,
          later, List.take_append_drop, List.drop_drop, skipped, remainder]
        simp [Carried.empty]

/-- The blocks of a stream, from the beginning of a group. -/
theorem feedBlocks_empty
    {size : Nat}
    (positive : 0 < size)
    (blocks : List (List V)) :
    feedBlocks size .empty blocks =
      ((groupsOf size blocks.flatten).map List.sum,
        ⟨blocks.flatten.length % size,
          (blocks.flatten.drop
            (blocks.flatten.length / size * size)).sum⟩) := by
  rw [feedBlocks_eq, feed_empty positive]

/-- A group has `size` values. -/
theorem length_of_mem_groupsOf
    {Value : Type}
    {size : Nat}
    {values group : List Value}
    (member : group ∈ groupsOf size values) :
    group.length = size := by
  obtain ⟨k, inRange, rfl⟩ := List.mem_map.mp member
  have enough : (k + 1) * size ≤ values.length :=
    calc
      (k + 1) * size ≤ values.length / size * size :=
        Nat.mul_le_mul_right _ (List.mem_range.mp inRange)
      _ ≤ values.length := Nat.div_mul_le_self _ _
  rw [Nat.add_mul, Nat.one_mul] at enough
  rw [List.length_take, List.length_drop]
  omega

/-- The values of a group are values of the stream. -/
theorem mem_of_mem_groupsOf
    {Value : Type}
    {size : Nat}
    {values group : List Value}
    {value : Value}
    (member : group ∈ groupsOf size values)
    (inGroup : value ∈ group) :
    value ∈ values := by
  obtain ⟨k, -, rfl⟩ := List.mem_map.mp member
  exact List.mem_of_mem_drop (List.mem_of_mem_take inGroup)

end LibRtlSdr.StreamingGroups
