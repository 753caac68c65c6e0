import Mathlib.Tactic.Ring

namespace LibRtlSdr.NearestMultiples

/-!
# The nearest multiple of a unit

A count of units is the nearest one to a value if no other count is nearer.  That
is so exactly if the error is half a unit at most.
-/

/-- No other multiple of the unit is nearer to the value. -/
def Nearest (unit value count : Nat) : Prop :=
  ∀ other : Nat,
    ((count : Int) * unit - value).natAbs ≤ ((other : Int) * unit - value).natAbs

/-- The count of units, rounded up from half of the unit on. -/
def roundHalf (unit value : Nat) : Nat :=
  value / unit + if unit / 2 ≤ value % unit then 1 else 0

variable {unit value count : Nat}

/-- Two multiples are a unit apart at least. -/
theorem unit_le_of_ne
    {other : Nat}
    (differs : other ≠ count) :
    (unit : Int) ≤ ((other : Int) * unit - (count : Int) * unit).natAbs := by
  have apart : 1 ≤ ((other : Int) - count).natAbs := by
    omega
  have product :
      ((other : Int) * unit - (count : Int) * unit).natAbs =
        ((other : Int) - count).natAbs * unit := by
    rw [← Int.sub_mul, Int.natAbs_mul, Int.natAbs_natCast]
  rw [product]
  exact_mod_cast Nat.le_mul_of_pos_left unit apart

/-- A count is nearest exactly if its error is half a unit at most. -/
theorem nearest_iff (positive : 0 < unit) :
    Nearest unit value count ↔
      2 * ((count : Int) * unit - value).natAbs ≤ unit := by
  constructor
  · intro nearest
    have above := nearest (count + 1)
    have next : (((count + 1 : Nat) : Int)) * unit = (count : Int) * unit + unit := by
      push_cast
      ring
    rw [next] at above
    by_cases none : count = 0
    · subst none
      simp only [Nat.cast_zero, zero_mul] at above ⊢
      omega
    · have below := nearest (count - 1)
      have previous :
          (((count - 1 : Nat) : Int)) * unit = (count : Int) * unit - unit := by
        rw [Nat.cast_sub (Nat.one_le_iff_ne_zero.mpr none)]
        push_cast
        ring
      rw [previous] at below
      generalize (count : Int) * unit = product at above below ⊢
      omega
  · intro close other
    by_cases same : other = count
    · rw [same]
    · have apart := @unit_le_of_ne unit count other same
      omega

/-- Rounding up from half of an even unit on gives a nearest count. -/
theorem nearest_roundHalf
    (positive : 0 < unit)
    (even : 2 * (unit / 2) = unit) :
    Nearest unit value (roundHalf unit value) := by
  have whole : (unit : Int) * (value / unit : Nat) + (value % unit : Nat) = value := by
    exact_mod_cast Nat.div_add_mod value unit
  have rest : value % unit < unit :=
    Nat.mod_lt value positive
  rw [nearest_iff positive]
  unfold roundHalf
  split
  · have up :
        (((value / unit + 1 : Nat) : Int)) * unit =
          (unit : Int) * (value / unit : Nat) + unit := by
      push_cast
      ring
    rw [up]
    omega
  · have down :
        (((value / unit + 0 : Nat) : Int)) * unit =
          (unit : Int) * (value / unit : Nat) := by
      push_cast
      ring
    rw [down]
    omega

/-- A count that is more than a unit away is not nearest. -/
theorem not_nearest_of_lt
    (positive : 0 < unit)
    (away : unit < ((count : Int) * unit - value).natAbs) :
    ¬ Nearest unit value count := by
  rw [nearest_iff positive]
  omega

end LibRtlSdr.NearestMultiples
