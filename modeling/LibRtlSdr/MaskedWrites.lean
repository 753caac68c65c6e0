import Mathlib.Data.List.Basic

namespace LibRtlSdr.MaskedWrites

/-!
# Masked writes to registers

A driver changes some bits of a register and leaves the others alone: it reads
the register, or a copy that it keeps, and writes back a value in which only the
masked bits are new.  What a list of such writes makes of one register depends
on the writes to that register alone.
-/

variable {width : Nat} {Address : Type}

/-- The masked bits of the new value, and the other bits of the old one. -/
def merge (old val mask : BitVec width) : BitVec width :=
  old &&& ~~~mask ||| val &&& mask

/-- A bit of a merged value comes from the new value where the mask is set. -/
theorem getLsbD_merge
    (old val mask : BitVec width)
    (bit : Nat) :
    (merge old val mask).getLsbD bit =
      if mask.getLsbD bit then val.getLsbD bit else old.getLsbD bit := by
  unfold merge
  by_cases inside : bit < width
  · simp only [BitVec.getLsbD_or, BitVec.getLsbD_and, BitVec.getLsbD_not,
      inside, decide_true, Bool.true_and]
    cases mask.getLsbD bit <;>
      simp
  · simp [BitVec.getLsbD_of_ge _ _ (Nat.not_lt.mp inside)]

/-- Bits that no write masks stay as they were. -/
theorem merge_and_of_disjoint
    {old val mask kept : BitVec width}
    (disjoint : mask &&& kept = 0) :
    merge old val mask &&& kept = old &&& kept := by
  apply BitVec.eq_of_getLsbD_eq
  intro bit inside
  have cleared := congrArg (fun word => word.getLsbD bit) disjoint
  rw [BitVec.getLsbD_and] at cleared
  rw [BitVec.getLsbD_and, BitVec.getLsbD_and, getLsbD_merge]
  cases inMask : mask.getLsbD bit with
  | false =>
      simp
  | true =>
      rw [inMask, Bool.true_and] at cleared
      simp [cleared]

/-- The masked bits of a merged value are those of the new one. -/
theorem merge_and_mask
    (old val mask : BitVec width) :
    merge old val mask &&& mask = val &&& mask := by
  apply BitVec.eq_of_getLsbD_eq
  intro bit inside
  rw [BitVec.getLsbD_and, BitVec.getLsbD_and, getLsbD_merge]
  cases mask.getLsbD bit <;>
    simp

/-- A write of some bits of a register. -/
structure MaskedWrite (Address : Type) (width : Nat) where
  reg : Address
  val : BitVec width
  mask : BitVec width
  deriving Repr, DecidableEq

/-- What a list of writes makes of the content of one register. -/
def valueAfter
    [DecidableEq Address]
    (writes : List (MaskedWrite Address width))
    (reg : Address)
    (content : BitVec width) :
    BitVec width :=
  writes.foldl
    (fun old write =>
      if write.reg = reg then merge old write.val write.mask else old)
    content

/-- A register that no write names keeps its content. -/
theorem valueAfter_of_untouched
    [DecidableEq Address]
    {writes : List (MaskedWrite Address width)}
    {reg : Address}
    (untouched : ∀ write ∈ writes, write.reg ≠ reg)
    (content : BitVec width) :
    valueAfter writes reg content = content := by
  unfold valueAfter
  induction writes generalizing content with
  | nil =>
      rfl
  | cons write rest inductionHypothesis =>
      rw [List.foldl_cons, if_neg (untouched write List.mem_cons_self)]
      exact inductionHypothesis
        (fun other member => untouched other (List.mem_cons_of_mem _ member))
        content

/-- Bits that no write to a register masks stay as they were. -/
theorem valueAfter_and_of_disjoint
    [DecidableEq Address]
    {writes : List (MaskedWrite Address width)}
    {reg : Address}
    {kept : BitVec width}
    (disjoint :
      ∀ write ∈ writes, write.reg = reg → write.mask &&& kept = 0)
    (content : BitVec width) :
    valueAfter writes reg content &&& kept = content &&& kept := by
  unfold valueAfter
  induction writes generalizing content with
  | nil =>
      rfl
  | cons write rest inductionHypothesis =>
      rw [List.foldl_cons,
        inductionHypothesis
          (fun other member =>
            disjoint other (List.mem_cons_of_mem _ member))]
      by_cases same : write.reg = reg
      · rw [if_pos same]
        exact merge_and_of_disjoint
          (disjoint write List.mem_cons_self same)
      · rw [if_neg same]

end LibRtlSdr.MaskedWrites
