import Mathlib.Data.List.Range
import Mathlib.Logic.Function.Basic

namespace LibRtlSdr.BoundedBuffer

/-!
# Buffers of fixed capacity

A buffer is a memory from indices to values of which the first `capacity` belong
to the program.  Blocks are stored, read and copied as a whole; an operation
that would leave the buffer has no result, and neither has a `memcpy` between
overlapping places.
-/

variable {Value : Type}

/-- The values of a block. -/
def window
    (memory : Nat → Value)
    (start length : Nat) :
    List Value :=
  (List.range' start length).map memory

/-- Put a block of values at `start`. -/
def blit
    (start : Nat)
    (values : List Value)
    (memory : Nat → Value) :
    Nat → Value :=
  fun index =>
    if start ≤ index then
      values[index - start]?.getD (memory index)
    else
      memory index

@[simp] theorem length_window
    (memory : Nat → Value)
    (start length : Nat) :
    (window memory start length).length = length := by
  simp [window]

/-- A block is its first part followed by the rest. -/
theorem window_add
    (memory : Nat → Value)
    (start first second : Nat) :
    window memory start (first + second) =
      window memory start first ++
        window memory (start + first) second := by
  unfold window
  rw [← List.range'_append_1, List.map_append]

/-- Blocks agree if the memories agree on them. -/
theorem window_congr
    {first second : Nat → Value}
    {start length : Nat}
    (same :
      ∀ index, start ≤ index → index < start + length →
        first index = second index) :
    window first start length = window second start length := by
  apply List.map_congr_left
  intro index member
  rw [List.mem_range'_1] at member
  exact same index member.1 member.2

@[simp] theorem blit_nil
    (start : Nat)
    (memory : Nat → Value) :
    blit start [] memory = memory := by
  funext index
  simp [blit]

/-- One value that is put there. -/
theorem blit_singleton
    (start : Nat)
    (value : Value)
    (memory : Nat → Value) :
    blit start [value] memory = Function.update memory start value := by
  funext index
  unfold blit
  rcases Nat.lt_trichotomy index start with below | rfl | above
  · rw [if_neg (by omega), Function.update_of_ne (by omega)]
  · simp
  · rw [Function.update_of_ne (by omega), if_pos (by omega),
      List.getElem?_eq_none (by rw [List.length_singleton]; omega), Option.getD_none]

/-- Outside the block that was put there, nothing changes. -/
theorem blit_of_outside
    {start index : Nat}
    {values : List Value}
    (outside : index < start ∨ start + values.length ≤ index)
    (memory : Nat → Value) :
    blit start values memory index = memory index := by
  unfold blit
  split_ifs with above
  · have beyond : values.length ≤ index - start := by omega
    rw [List.getElem?_eq_none beyond, Option.getD_none]
  · rfl

/-- A block that is put there is read back. -/
theorem window_blit_self
    (start : Nat)
    (values : List Value)
    (memory : Nat → Value) :
    window (blit start values memory) start values.length = values := by
  apply List.ext_getElem
  · simp
  · intro index below inValues
    simp [window, blit, inValues]

/-- A block that is put back where it stands changes nothing. -/
theorem blit_window
    (start length : Nat)
    (memory : Nat → Value) :
    blit start (window memory start length) memory = memory := by
  funext index
  unfold blit window
  split_ifs with above
  · rw [List.getElem?_map]
    by_cases inside : index - start < length
    · rw [List.getElem?_eq_getElem (by simpa using inside), List.getElem_range']
      simp [Nat.add_sub_of_le above]
    · rw [List.getElem?_eq_none (by simpa using inside)]
      rfl
  · rfl

/-- A block that is copied to the same place of another memory. -/
theorem blit_window_of_inside
    {start length index : Nat}
    (inside : start ≤ index ∧ index < start + length)
    (source memory : Nat → Value) :
    blit start (window source start length) memory index = source index := by
  unfold blit window
  have inList : index - start < length := by
    omega
  rw [if_pos inside.1, List.getElem?_map,
    List.getElem?_eq_getElem (by simpa using inList), List.getElem_range']
  simp [Nat.add_sub_of_le inside.1]

/-- A block elsewhere stays. -/
theorem window_blit_of_disjoint
    {target start length : Nat}
    {values : List Value}
    (disjoint :
      start + length ≤ target ∨ target + values.length ≤ start)
    (memory : Nat → Value) :
    window (blit target values memory) start length =
      window memory start length := by
  apply window_congr
  intro index lower upper
  exact blit_of_outside (by omega) memory

/-- Storing behind a block makes it longer. -/
theorem window_blit_append
    (start length : Nat)
    (values : List Value)
    (memory : Nat → Value) :
    window (blit (start + length) values memory) start
        (length + values.length) =
      window memory start length ++ values := by
  rw [window_add, window_blit_self,
    window_blit_of_disjoint (.inl (Nat.le_refl _))]

/-! ## Checked operations -/

/-- Read a block, if it lies in the buffer. -/
def read?
    (capacity : Nat)
    (memory : Nat → Value)
    (start length : Nat) :
    Option (List Value) :=
  if start + length ≤ capacity then
    some (window memory start length)
  else
    none

/-- Store a block, if it lies in the buffer. -/
def write?
    (capacity start : Nat)
    (values : List Value)
    (memory : Nat → Value) :
    Option (Nat → Value) :=
  if start + values.length ≤ capacity then
    some (blit start values memory)
  else
    none

/-- `memcpy` inside one buffer: both blocks lie in it and do not overlap. -/
def memcpy?
    (capacity target source length : Nat)
    (memory : Nat → Value) :
    Option (Nat → Value) :=
  if target + length ≤ capacity ∧ source + length ≤ capacity ∧
      (target + length ≤ source ∨ source + length ≤ target) then
    some (blit target (window memory source length) memory)
  else
    none

/-- Read one value, if it lies in the buffer. -/
def get?
    (capacity : Nat)
    (memory : Nat → Value)
    (index : Nat) :
    Option Value :=
  if index < capacity then
    some (memory index)
  else
    none

/-- Store one value, if it lies in the buffer. -/
def put?
    (capacity index : Nat)
    (value : Value)
    (memory : Nat → Value) :
    Option (Nat → Value) :=
  if index < capacity then
    some (Function.update memory index value)
  else
    none

theorem get?_of_lt
    {capacity index : Nat}
    (inside : index < capacity)
    (memory : Nat → Value) :
    get? capacity memory index = some (memory index) :=
  if_pos inside

theorem put?_of_lt
    {capacity index : Nat}
    (inside : index < capacity)
    (value : Value)
    (memory : Nat → Value) :
    put? capacity index value memory =
      some (Function.update memory index value) :=
  if_pos inside

/-- What was copied is found at the target. -/
theorem window_memcpy
    {capacity target source length : Nat}
    {memory copied : Nat → Value}
    (done : memcpy? capacity target source length memory = some copied) :
    window copied target length = window memory source length := by
  unfold memcpy? at done
  rw [Option.ite_none_right_eq_some, Option.some.injEq] at done
  rw [← done.2]
  have read :=
    window_blit_self target (window memory source length) memory
  rw [length_window] at read
  exact read

end LibRtlSdr.BoundedBuffer
