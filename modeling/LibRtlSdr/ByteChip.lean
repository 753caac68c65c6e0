import LibRtlSdr.DriverProgram
import LibRtlSdr.MaskedWrites
import Mathlib.Logic.Function.Basic

namespace LibRtlSdr.ByteChip

open DriverProgram

/-!
# A chip of byte registers

A chip on an I2C bus whose registers hold one byte each.  Each transfer succeeds
or fails by a script, and a read may show anything of a register, as a status
register does; an honest chip shows what the register holds.
-/

/-- A chip, and the script of its transfers. -/
structure Chip where
  registers : UInt8 → UInt8
  /-- Does the transfer of this number succeed? -/
  answers : Nat → Bool
  transfers : Nat
  /-- What the transfer of this number reads of a register with some content. -/
  shows : Nat → UInt8 → UInt8 → UInt8

namespace Chip

/-- The chip when a register is written. -/
def written (reg val : UInt8) (chip : Chip) : Chip :=
  { chip with registers := Function.update chip.registers reg val }

/-- The chip behind a transfer. -/
def passed (chip : Chip) : Chip :=
  { chip with transfers := chip.transfers + 1 }

/-- Every transfer succeeds. -/
def Answering (chip : Chip) : Prop :=
  ∀ place, chip.answers place = true

/-- A read shows what the register holds. -/
def Honest (chip : Chip) : Prop :=
  ∀ place reg held, chip.shows place reg held = held

/-- An honest chip that answers, with all its registers zero. -/
def cleared : Chip where
  registers := fun _ => 0
  answers := fun _ => true
  transfers := 0
  shows := fun _ _ held => held

theorem cleared_answering : cleared.Answering :=
  fun _ => rfl

@[simp] theorem written_registers
    (reg val : UInt8)
    (chip : Chip) :
    (chip.written reg val).registers = Function.update chip.registers reg val :=
  rfl

@[simp] theorem passed_registers (chip : Chip) : chip.passed.registers = chip.registers :=
  rfl

end Chip

/-- The next transfer. -/
def transfer : Program Chip Bool := do
  let chip ← get
  modify Chip.passed
  return chip.answers chip.transfers

/-- Write a register; does it succeed? -/
def writeByte (reg val : UInt8) : Program Chip Bool := do
  if ← transfer then
    modify (Chip.written reg val)
    return true
  else
    return false

/-- Write the number of a register and read the register. -/
def readByte (reg : UInt8) : Program Chip (Option UInt8) := do
  if ← transfer then
    let chip ← get
    if ← transfer then
      return some (chip.shows chip.transfers reg (chip.registers reg))
    else
      return none
  else
    return none

theorem transfer_ends :
    Ends transfer :=
  Ends.get.bind fun _ => (Ends.modify _).bind fun _ => Ends.pure _

theorem writeByte_ends
    (reg val : UInt8) :
    Ends (writeByte reg val) :=
  transfer_ends.bind fun _ =>
    Ends.ite ((Ends.modify _).bind fun _ => Ends.pure _) (Ends.pure _)

theorem readByte_ends
    (reg : UInt8) :
    Ends (readByte reg) :=
  transfer_ends.bind fun _ =>
    Ends.ite
      (Ends.get.bind fun _ => transfer_ends.bind fun _ =>
        Ends.ite (Ends.pure _) (Ends.pure _))
      (Ends.pure _)

section Scripted

variable {before : Chip}

/-- The script decides on a transfer. -/
theorem transfer_yields :
    Yields transfer before (before.answers before.transfers) before.passed := by
  simp only [transfer, yields_bind, yields_get, yields_modify, yields_pure]
  exact ⟨before, before, ⟨rfl, rfl⟩, ⟨⟩, before.passed, rfl, rfl, rfl⟩

/-- A write that fails changes nothing. -/
theorem writeByte_failed
    (failed : before.answers before.transfers = false)
    (reg val : UInt8) :
    Yields (writeByte reg val) before false before.passed := by
  refine (yields_bind_of transfer_yields).mpr ?_
  rw [failed]
  exact yields_pure.mpr ⟨rfl, rfl⟩

/-- A write that succeeds sets its register. -/
theorem writeByte_succeeded
    (succeeded : before.answers before.transfers = true)
    (reg val : UInt8) :
    Yields (writeByte reg val) before true (before.passed.written reg val) := by
  refine (yields_bind_of transfer_yields).mpr ?_
  rw [succeeded]
  simp

/-- A read shows a register after two transfers, or fails at one of them. -/
theorem readByte_cases
    (reg : UInt8) :
    (Yields (readByte reg) before
        (some (before.shows (before.transfers + 1) reg (before.registers reg)))
        before.passed.passed) ∨
      Yields (readByte reg) before none before.passed ∨
      Yields (readByte reg) before none before.passed.passed := by
  unfold readByte
  by_cases first : before.answers before.transfers = true
  · have second :
        Yields transfer before.passed
          (before.answers (before.transfers + 1)) before.passed.passed :=
      transfer_yields
    by_cases answered : before.answers (before.transfers + 1) = true
    · left
      refine (yields_bind_of transfer_yields).mpr ?_
      rw [if_pos first]
      refine (yields_bind_of (yields_get.mpr ⟨rfl, rfl⟩)).mpr ?_
      refine (yields_bind_of second).mpr ?_
      rw [if_pos answered]
      exact yields_pure.mpr ⟨rfl, rfl⟩
    · right
      right
      refine (yields_bind_of transfer_yields).mpr ?_
      rw [if_pos first]
      refine (yields_bind_of (yields_get.mpr ⟨rfl, rfl⟩)).mpr ?_
      refine (yields_bind_of second).mpr ?_
      rw [if_neg answered]
      exact yields_pure.mpr ⟨rfl, rfl⟩
  · right
    left
    refine (yields_bind_of transfer_yields).mpr ?_
    rw [if_neg first]
    exact yields_pure.mpr ⟨rfl, rfl⟩

end Scripted

section Answering

variable {before : Chip}

/-- On an answering chip a transfer succeeds. -/
theorem transfer_answered
    (answering : before.Answering) :
    Yields transfer before true before.passed := by
  have yields := @transfer_yields before
  rwa [answering] at yields

/-- On an answering chip a register is written. -/
theorem writeByte_answered
    (answering : before.Answering)
    (reg val : UInt8) :
    Yields (writeByte reg val) before true (before.passed.written reg val) :=
  writeByte_succeeded (answering _) reg val

/-- On an answering chip a register is read. -/
theorem readByte_answered
    (answering : before.Answering)
    (reg : UInt8) :
    Yields (readByte reg) before
      (some (before.shows (before.transfers + 1) reg (before.registers reg)))
      before.passed.passed := by
  unfold readByte
  refine (yields_bind_of (transfer_answered answering)).mpr ?_
  rw [if_pos rfl]
  refine (yields_bind_of (yields_get.mpr ⟨rfl, rfl⟩)).mpr ?_
  have answeringStill : before.passed.Answering :=
    answering
  refine (yields_bind_of (transfer_answered answeringStill)).mpr ?_
  rw [if_pos rfl]
  exact yields_pure.mpr ⟨rfl, rfl⟩

end Answering

/-- A chip that holds registers, shows them, and whose transfers succeed. -/
structure Chip.Holds (registers : UInt8 → UInt8) (chip : Chip) : Prop where
  answering : chip.Answering
  honest : chip.Honest
  registers : chip.registers = registers

section Memory

variable {registers : UInt8 → UInt8} {before : Chip}

theorem Chip.Holds.writeByte
    (holds : before.Holds registers)
    (reg val : UInt8) :
    Returns (ByteChip.writeByte reg val) before true
      (Chip.Holds (Function.update registers reg val)) := by
  refine ⟨_, writeByte_answered holds.answering reg val,
    holds.answering, holds.honest, ?_⟩
  rw [← holds.registers]
  rfl

theorem Chip.Holds.readByte
    (holds : before.Holds registers)
    (reg : UInt8) :
    Returns (ByteChip.readByte reg) before (some (registers reg))
      (Chip.Holds registers) := by
  have read := readByte_answered holds.answering reg
  rw [holds.honest, holds.registers] at read
  exact ⟨_, read, holds.answering, holds.honest, holds.registers⟩

end Memory

/-- Transfers succeed as at the start, and only these registers may have changed. -/
structure Chip.Within (footprint : List UInt8) (start chip : Chip) : Prop where
  answering : chip.Answering
  others : ∀ reg, reg ∉ footprint → chip.registers reg = start.registers reg

section Footprints

variable {footprint : List UInt8} {start before : Chip}

theorem Chip.Answering.within
    (answering : start.Answering)
    (footprint : List UInt8) :
    Chip.Within footprint start start :=
  ⟨answering, fun _ _ => rfl⟩

theorem Chip.Within.written
    (within : Chip.Within footprint start before)
    {reg : UInt8}
    (member : reg ∈ footprint)
    (val : UInt8) :
    Chip.Within footprint start (before.passed.written reg val) := by
  refine ⟨within.answering, fun other outside => ?_⟩
  have differs : other ≠ reg := by
    rintro rfl
    exact outside member
  exact (Function.update_of_ne differs _ _).trans (within.others other outside)

/-- A register of the footprint may be written. -/
theorem Chip.Within.writeByte
    (within : Chip.Within footprint start before)
    {reg : UInt8}
    (member : reg ∈ footprint)
    (val : UInt8) :
    Returns (ByteChip.writeByte reg val) before true (Chip.Within footprint start) :=
  ⟨_, writeByte_answered within.answering reg val, within.written member val⟩

/-- Any register may be read. -/
theorem Chip.Within.readByte
    (within : Chip.Within footprint start before)
    (reg : UInt8) :
    Returns (ByteChip.readByte reg) before
      (some (before.shows (before.transfers + 1) reg (before.registers reg)))
      (Chip.Within footprint start) :=
  ⟨_, readByte_answered within.answering reg, within.answering, within.others⟩

end Footprints

/-- On an answering chip each register holds the last byte that is written to it. -/
structure Chip.Loaded (writes : List (UInt8 × UInt8)) (start chip : Chip) : Prop where
  answering : chip.Answering
  registers :
    chip.registers =
      writes.foldl
        (fun registers write => Function.update registers write.1 write.2)
        start.registers

theorem Chip.Loaded.nil
    {start : Chip}
    (answering : start.Answering) :
    Chip.Loaded [] start start :=
  ⟨answering, rfl⟩

theorem Chip.Loaded.cons
    {start middle chip : Chip}
    {first : UInt8 × UInt8}
    {rest : List (UInt8 × UInt8)}
    (wrote : middle.registers = Function.update start.registers first.1 first.2)
    (later : Chip.Loaded rest middle chip) :
    Chip.Loaded (first :: rest) start chip := by
  refine ⟨later.answering, ?_⟩
  rw [later.registers, wrote]
  rfl

/-- Each register holds what it held at the start, or a byte that is written to it. -/
def Chip.Wrote (writes : List (UInt8 × UInt8)) (start chip : Chip) : Prop :=
  ∀ reg,
    chip.registers reg = start.registers reg ∨ (reg, chip.registers reg) ∈ writes

section Written

variable {first second : List (UInt8 × UInt8)} {start before after : Chip}

theorem Chip.Wrote.refl : Chip.Wrote first start start :=
  fun _ => .inl rfl

theorem Chip.Wrote.trans
    (earlier : Chip.Wrote first start before)
    (later : Chip.Wrote second before after) :
    Chip.Wrote (first ++ second) start after := by
  intro reg
  rcases later reg with same | member
  · rw [same]
    exact (earlier reg).imp_right (List.mem_append_left _)
  · exact .inr (List.mem_append_right _ member)

/-- A transfer changes no register. -/
theorem transfer_completes :
    Completes transfer before (fun after => after.registers = before.registers) :=
  Completes.getBind (Completes.modifyBind (Completes.pure rfl))

/-- A write succeeds, or changes nothing. -/
theorem writeByte_wrote
    (reg val : UInt8) :
    Completes (writeByte reg val) before (Chip.Wrote [(reg, val)] before) := by
  apply transfer_completes.bind
  intro answered middle same
  split
  · refine Completes.modifyBind (Completes.pure fun other => ?_)
    by_cases isReg : other = reg
    · subst isReg
      exact .inr (by simp)
    · refine .inl ((Function.update_of_ne isReg _ _).trans ?_)
      rw [same]
  · exact Completes.pure fun other => .inl (congrFun same other)

theorem readByte_wrote
    (reg : UInt8) :
    Completes (readByte reg) before (Chip.Wrote [] before) := by
  apply transfer_completes.bind
  intro answered middle same
  have kept : Chip.Wrote [] before middle :=
    fun other => .inl (congrFun same other)
  split
  · apply Completes.getBind
    apply transfer_completes.bind
    intro answered after sameAfter
    have keptAfter : Chip.Wrote [] before after :=
      fun other => .inl ((congrFun sameAfter other).trans (congrFun same other))
    split <;>
      exact Completes.pure keptAfter
  · exact Completes.pure kept

end Written

/-- The high byte of a word. -/
theorem toNat_highByte
    (word : UInt16) :
    (word >>> 8).toUInt8.toNat = word.toNat / 256 := by
  have small := word.toNat_lt
  rw [UInt16.toNat_toUInt8, UInt16.toNat_shiftRight]
  change (word.toNat >>> 8) % 256 = _
  omega

/-- The low byte of a word. -/
theorem toNat_lowByte
    (word : UInt16) :
    (word &&& 0xff).toUInt8.toNat = word.toNat % 256 := by
  rw [UInt16.toNat_toUInt8, UInt16.toNat_and]
  change (word.toNat &&& 2 ^ 8 - 1) % 256 = _
  rw [Nat.and_two_pow_sub_one_eq_mod]
  exact Nat.mod_mod _ _

/-- A field that is written into a byte can be read from it. -/
theorem field_and_mask
    (old val mask : UInt8) :
    (old &&& ~~~mask ||| val &&& mask) &&& mask = val &&& mask := by
  rw [← UInt8.toBitVec_inj]
  simp only [UInt8.toBitVec_and, UInt8.toBitVec_or, UInt8.toBitVec_not]
  exact MaskedWrites.merge_and_mask old.toBitVec val.toBitVec mask.toBitVec

end LibRtlSdr.ByteChip
