import Mathlib.Order.Lattice

namespace LibRtlSdr.Following

/-!
# Values that follow a stream of targets

Each value is reached from the one before by a step towards the current target that
does not pass it.  So no value leaves the range of the start and of the targets up to
it, and a target that stays is never left behind again.
-/

section Order

variable {Value : Type} [LinearOrder Value]

/-- A step goes towards the target and does not pass it. -/
def Toward (before target after : Value) : Prop :=
  (before ≤ after ∧ after ≤ target) ∨ (target ≤ after ∧ after ≤ before)

/-- A value lies between two of the values given. -/
def Spans (given : List Value) (value : Value) : Prop :=
  (∃ low ∈ given, low ≤ value) ∧ ∃ high ∈ given, value ≤ high

/-- The values follow the targets, one step for each. -/
inductive Follows : Value → List Value → List Value → Prop where
  | nil
      {start : Value} :
      Follows start [] []
  | cons
      {start target value : Value}
      {targets values : List Value}
      (toward : Toward start target value)
      (follows : Follows value targets values) :
      Follows start (target :: targets) (value :: values)

/-- One stretch after the other. -/
theorem Follows.append
    {start : Value}
    {firstTargets firstValues secondTargets secondValues : List Value}
    (first : Follows start firstTargets firstValues)
    (second : Follows (firstValues.getLastD start) secondTargets secondValues) :
    Follows start (firstTargets ++ secondTargets) (firstValues ++ secondValues) := by
  induction first with
  | nil =>
      exact second
  | cons toward follows inductionHypothesis =>
      rw [List.getLastD_cons] at second
      exact .cons toward (inductionHypothesis second)

/-- The values up to a place follow the targets up to there. -/
theorem Follows.take
    {start : Value}
    {targets values : List Value}
    (follows : Follows start targets values)
    (count : Nat) :
    Follows start (targets.take count) (values.take count) := by
  induction follows generalizing count with
  | nil =>
      simpa using Follows.nil
  | cons toward follows inductionHypothesis =>
      cases count with
      | zero =>
          exact .nil
      | succ count =>
          exact .cons toward (inductionHypothesis count)

/-- A step stays within the start and the target. -/
theorem Toward.spans
    {before target after : Value}
    (toward : Toward before target after) :
    Spans [before, target] after := by
  rcases toward with ⟨above, below⟩ | ⟨above, below⟩
  · exact ⟨⟨before, by simp, above⟩, ⟨target, by simp, below⟩⟩
  · exact ⟨⟨target, by simp, above⟩, ⟨before, by simp, below⟩⟩

/-- Values among which each of the given ones lies give a range for it. -/
theorem Spans.trans
    {given wider : List Value}
    {value : Value}
    (spans : Spans given value)
    (within : ∀ other ∈ given, Spans wider other) :
    Spans wider value := by
  obtain ⟨⟨low, lowGiven, atLeast⟩, high, highGiven, atMost⟩ := spans
  obtain ⟨lower, lowerGiven, below⟩ := (within low lowGiven).1
  obtain ⟨higher, higherGiven, above⟩ := (within high highGiven).2
  exact
    ⟨⟨lower, lowerGiven, below.trans atLeast⟩, ⟨higher, higherGiven, atMost.trans above⟩⟩

theorem spans_of_mem
    {given : List Value}
    {value : Value}
    (member : value ∈ given) :
    Spans given value :=
  ⟨⟨value, member, le_refl value⟩, ⟨value, member, le_refl value⟩⟩

/-- The last value lies within the start and the targets. -/
theorem Follows.spans
    {start : Value}
    {targets values : List Value}
    (follows : Follows start targets values) :
    Spans (start :: targets) (values.getLastD start) := by
  induction follows with
  | nil =>
      exact spans_of_mem List.mem_cons_self
  | @cons start target value targets values toward follows inductionHypothesis =>
      rw [List.getLastD_cons]
      apply inductionHypothesis.trans
      intro other member
      rcases List.mem_cons.mp member with rfl | later
      · apply toward.spans.trans
        intro border member
        apply spans_of_mem
        simp only [List.mem_cons, List.not_mem_nil, or_false] at member
        rcases member with rfl | rfl <;> simp
      · apply spans_of_mem
        simp [later]

end Order

/-- No step makes the distance from its target larger. -/
theorem Toward.closer
    {before target after : Int}
    (toward : Toward before target after) :
    (target - after).natAbs ≤ (target - before).natAbs := by
  unfold Toward at toward
  omega

/-- Values that follow one target come closer and closer. -/
theorem Follows.closer
    {target start : Int}
    {targets values : List Int}
    (follows : Follows start targets values)
    (constant : ∀ other ∈ targets, other = target) :
    (start :: values).Pairwise
      (fun before after => (target - after).natAbs ≤ (target - before).natAbs) := by
  induction follows with
  | nil =>
      exact List.pairwise_singleton _ _
  | @cons start first value targets values toward follows inductionHypothesis =>
      rw [List.forall_mem_cons] at constant
      have later := inductionHypothesis constant.2
      have step := toward.closer
      rw [constant.1] at step
      refine List.pairwise_cons.mpr ⟨?_, later⟩
      intro other member
      rcases List.mem_cons.mp member with rfl | behind
      · exact step
      · exact ((List.pairwise_cons.mp later).1 other behind).trans step

end LibRtlSdr.Following
