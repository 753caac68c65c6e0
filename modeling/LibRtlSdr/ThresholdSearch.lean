import Mathlib.Order.Defs.LinearOrder
import Mathlib.Order.Lattice

namespace LibRtlSdr.ThresholdSearch

/-!
# The first place that reaches a target

A loop goes through the places of a path and stops at the first whose value
reaches a target; when none does, it ends at the last place.  What it stops at
is thus determined by the target alone, and it is monotone in the target as far
as the path ascends.
-/

variable {Value : Type} [LinearOrder Value]

/-- The search for a target stops at a place of a path that ends at `last`. -/
structure StopsAt
    (path : Nat → Value)
    (last : Nat)
    (target : Value)
    (place : Nat) : Prop where
  inside : place ≤ last
  passed : ∀ earlier < place, path earlier < target
  reached : place = last ∨ target ≤ path place

/-- The path ascends up to a place. -/
def AscendsTo (path : Nat → Value) (top : Nat) : Prop :=
  ∀ place < top, path place < path (place + 1)

instance (path : Nat → Value) (top : Nat) : Decidable (AscendsTo path top) :=
  inferInstanceAs (Decidable (∀ place < top, _))

variable {path : Nat → Value} {last top place other : Nat} {target larger : Value}

/-- A later place of an ascending path has a larger value. -/
theorem AscendsTo.lt
    (ascends : AscendsTo path top)
    (before : place < other)
    (within : other ≤ top) :
    path place < path other := by
  induction other with
  | zero =>
      exact absurd before (Nat.not_lt_zero place)
  | succ other inductionHypothesis =>
      have step := ascends other within
      rcases Nat.lt_succ_iff_lt_or_eq.mp before with earlier | rfl
      · exact (inductionHypothesis earlier (Nat.le_of_lt within)).trans step
      · exact step

theorem AscendsTo.le
    (ascends : AscendsTo path top)
    (before : place ≤ other)
    (within : other ≤ top) :
    path place ≤ path other := by
  rcases Nat.lt_or_eq_of_le before with earlier | rfl
  · exact (ascends.lt earlier within).le
  · exact le_rfl

namespace StopsAt

/-- A search that stops later has passed the earlier place. -/
theorem le_of_reached
    (stops : StopsAt path last target place)
    (reaches : target ≤ path other) :
    place ≤ other := by
  by_contra passedIt
  exact absurd reaches
    (not_le.mpr (stops.passed other (Nat.lt_of_not_le passedIt)))

/-- The search for a larger target does not stop earlier. -/
theorem mono
    (stops : StopsAt path last target place)
    (stopsLarger : StopsAt path last larger other)
    (ordered : target ≤ larger) :
    place ≤ other := by
  rcases stopsLarger.reached with atLast | reaches
  · rw [atLast]
    exact stops.inside
  · exact stops.le_of_reached (ordered.trans reaches)

/-- The search has one result. -/
theorem unique
    (stops : StopsAt path last target place)
    (stopsToo : StopsAt path last target other) :
    place = other :=
  Nat.le_antisymm (stops.mono stopsToo le_rfl) (stopsToo.mono stops le_rfl)

/-- When some place before the last reaches the target, the search stops at such a place. -/
theorem reaches_of_exists
    (stops : StopsAt path last target place)
    (before : other < last)
    (reaches : target ≤ path other) :
    place < last ∧ target ≤ path place := by
  have early : place < last :=
    Nat.lt_of_le_of_lt (stops.le_of_reached reaches) before
  exact ⟨early, stops.reached.resolve_left (Nat.ne_of_lt early)⟩

/-- When no place before the last reaches the target, the search ends at the last. -/
theorem last_of_forall
    (stops : StopsAt path last target place)
    (unreached : ∀ earlier < last, path earlier < target) :
    place = last := by
  rcases stops.reached with atLast | reaches
  · exact atLast
  · rcases Nat.lt_or_eq_of_le stops.inside with early | atLast
    · exact absurd reaches (not_le.mpr (unreached place early))
    · exact atLast

/-- A value that an ascending path takes is found at its place. -/
theorem place_of_value
    (within : other ≤ last)
    (ascends : AscendsTo path other)
    (stops : StopsAt path last (path other) place) :
    place = other := by
  apply Nat.le_antisymm (stops.le_of_reached le_rfl)
  rcases stops.reached with atLast | reaches
  · rw [atLast]
    exact within
  · by_contra early
    exact absurd reaches
      (not_le.mpr (ascends.lt (Nat.lt_of_not_le early) (Nat.le_refl other)))

end StopsAt

end LibRtlSdr.ThresholdSearch
