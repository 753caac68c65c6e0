import Mathlib.Algebra.Order.Ring.Nat

namespace LibRtlSdr.CircularIndex

/-!
# Indices of a circular buffer

The units of a stream go into a buffer of fixed size one after the other, and begin again
at its start when they come to its end.  The place of a unit is its number modulo the
size.  As long as less than a whole round lies between two units, their places tell how
far they are apart.
-/

variable {size : Nat}

/-- Less than a round further, the place has wrapped at most once. -/
theorem place_add
    {count : Nat}
    (short : count < size)
    (first : Nat) :
    (first + count) % size =
      if first % size + count < size then
        first % size + count
      else
        first % size + count - size := by
  have below : first % size < size := Nat.mod_lt _ (by omega)
  rw [Nat.add_mod, Nat.mod_eq_of_lt short]
  split
  · rename_i inside
    exact Nat.mod_eq_of_lt inside
  · rename_i wraps
    rw [Nat.mod_eq_sub_mod (by omega), Nat.mod_eq_of_lt (by omega)]

/-- The places of different units within a round differ. -/
theorem place_ne
    {first second : Nat}
    (isLater : first < second)
    (short : second < first + size) :
    first % size ≠ second % size := by
  have place := place_add (show second - first < size by omega) first
  have below : first % size < size := Nat.mod_lt _ (by omega)
  rw [show first + (second - first) = second by omega] at place
  split at place <;> omega

/-- A unit whose place is not behind that of an earlier one stands in the same round. -/
theorem place_of_le
    {first second : Nat}
    (isLater : first ≤ second)
    (short : second < first + size)
    (notBehind : first % size ≤ second % size) :
    second % size = first % size + (second - first) := by
  have place := place_add (show second - first < size by omega) first
  have below : first % size < size := Nat.mod_lt _ (by omega)
  rw [show first + (second - first) = second by omega] at place
  split at place <;> omega

/-- A unit whose place is behind that of an earlier one stands in the next round. -/
theorem place_of_lt
    {first second : Nat}
    (isLater : first ≤ second)
    (short : second < first + size)
    (behind : second % size < first % size) :
    second % size + size = first % size + (second - first) := by
  have place := place_add (show second - first < size by omega) first
  have below : first % size < size := Nat.mod_lt _ (by omega)
  rw [show first + (second - first) = second by omega] at place
  split at place <;> omega

/-- A unit a round later has the place of the first again. -/
theorem place_round (first : Nat) : (first + size) % size = first % size :=
  Nat.add_mod_right first size

end LibRtlSdr.CircularIndex
