namespace LibRtlSdr.Stretches

/-!
# Stretches of a set of numbers

A stretch holds consecutive numbers of a set below a bound, up to one that is
not in the set.  The maximal ones do not overlap, and every number of the set
below the bound is in one.
-/

/-- The numbers from one on that are in a set, up to one that is not, or to the bound. -/
structure Stretch
    (Member : Nat → Prop)
    (bound first count : Nat) : Prop where
  inside : first + count ≤ bound
  members : ∀ offset < count, Member (first + offset)
  ends : first + count < bound → ¬ Member (first + count)

/-- A stretch that cannot be made longer at its front. -/
structure MaximalStretch
    (Member : Nat → Prop)
    (bound first count : Nat) : Prop
    extends Stretch Member bound first count where
  starts : 0 < first → ¬ Member (first - 1)

variable {Member : Nat → Prop} {bound first count : Nat}

/-- A stretch begins at every number of the set. -/
theorem exists_stretch
    (inside : first < bound)
    (member : Member first) :
    ∃ count, 0 < count ∧ Stretch Member bound first count := by
  induction remaining : bound - first using Nat.strongRecOn
      generalizing first with
  | ind remaining inductionHypothesis =>
      by_cases more : first + 1 < bound ∧ Member (first + 1)
      · rcases inductionHypothesis (bound - (first + 1)) (by omega) more.1
            more.2 rfl with
          ⟨count, _, stretch⟩
        refine
          ⟨count + 1, Nat.succ_pos _, ?_, fun offset before => ?_, ?_⟩
        · have within := stretch.inside
          omega
        · cases offset with
          | zero =>
              exact member
          | succ offset =>
              have next := stretch.members offset (by omega)
              rwa [Nat.add_assoc, Nat.add_comm 1] at next
        · have ends := stretch.ends
          rwa [Nat.add_assoc, Nat.add_comm 1] at ends
      · refine
          ⟨1, Nat.one_pos, inside, fun offset before => ?_,
            fun within isMember => more ⟨within, isMember⟩⟩
        have isFirst : offset = 0 := by
          omega
        rw [isFirst]
        exact member

namespace Stretch

/-- The rest of a stretch is a stretch. -/
theorem drop
    (stretch : Stretch Member bound first count)
    {offset : Nat}
    (within : offset ≤ count) :
    Stretch Member bound (first + offset) (count - offset) where
  inside := by
    have inside := stretch.inside
    omega
  members := by
    intro further before
    rw [Nat.add_assoc]
    exact stretch.members (offset + further) (by omega)
  ends := by
    have same : first + offset + (count - offset) = first + count := by
      omega
    rw [same]
    exact stretch.ends

/-- Every number of a stretch is in the set. -/
theorem member
    (stretch : Stretch Member bound first count)
    {number : Nat}
    (after : first ≤ number)
    (before : number < first + count) :
    Member number := by
  have isMember := stretch.members (number - first) (by omega)
  rwa [Nat.add_sub_of_le after] at isMember

end Stretch

namespace MaximalStretch

/-- A maximal stretch does not begin inside of a stretch. -/
theorem first_le
    (stretch : MaximalStretch Member bound first count)
    {other length number : Nat}
    (overlaps : Stretch Member bound other length)
    (after : first ≤ number)
    (before : number < other + length) :
    first ≤ other := by
  rcases Nat.lt_or_ge other first with later | atMost
  · refine absurd ?_ (stretch.starts (by omega))
    exact overlaps.member (by omega) (by omega)
  · exact atMost

/-- Stretches from one number on are equally long. -/
theorem count_le
    (stretch : MaximalStretch Member bound first count)
    {length : Nat}
    (other : Stretch Member bound first length) :
    length ≤ count := by
  have within := other.inside
  rcases Nat.lt_or_ge count length with longer | atMost
  · refine absurd ?_ (stretch.ends (by omega))
    exact other.members count longer
  · exact atMost

/-- Two maximal stretches that share a number are the same. -/
theorem unique
    (stretch : MaximalStretch Member bound first count)
    {other length number : Nat}
    (stretchToo : MaximalStretch Member bound other length)
    (inside : first ≤ number ∧ number < first + count)
    (insideToo : other ≤ number ∧ number < other + length) :
    first = other ∧ count = length := by
  have same : first = other :=
    Nat.le_antisymm
      (stretch.first_le stretchToo.toStretch inside.1 insideToo.2)
      (stretchToo.first_le stretch.toStretch insideToo.1 inside.2)
  subst same
  exact
    ⟨rfl, Nat.le_antisymm (stretchToo.count_le stretch.toStretch)
      (stretch.count_le stretchToo.toStretch)⟩

end MaximalStretch

end LibRtlSdr.Stretches
