import LibRtlSdr.DriverProgram
import LibRtlSdr.MaskedWrites
import LibRtlSdr.OverlayWrites

namespace LibRtlSdr.R82xx

open DriverProgram MaskedWrites OverlayWrites

/-!
# Registers of the R82xx

The I2C read and write code of `tuner_r82xx.c` and its shadow registers.  The
bus answers every transfer from a script: it is done, or it fails with a code
and changes nothing on the chip.  What is read of the chip is part of the
script, and thus any value.
-/

/-- The content of a register. -/
abbrev Byte :=
  BitVec 8

/-- How the bus answers a transfer. -/
inductive Transfer where
  | done
  | failed (code : Int32)
  deriving Repr, DecidableEq

/-- The chip on its bus, and the script of answers with the place reached in it. -/
structure Bus where
  chip : Nat → Byte
  writeAnswers : Nat → Transfer
  writes : Nat
  readAnswers : Nat → Transfer × (Nat → Byte)
  reads : Nat

/-- The chips of `enum r82xx_chip` that the library knows. -/
inductive Chip where
  | r820t
  | r828d
  deriving Repr, DecidableEq

/-- `enum r82xx_xtal_cap_value`. -/
inductive XtalCap where
  | lowCap30p
  | lowCap20p
  | lowCap10p
  | lowCap0p
  | highCap0p
  deriving Repr, DecidableEq

/--
`struct r82xx_priv` with its `cfg`, the answer of `rtlsdr_check_dongle_model` for
the Blog V4, and the bus.
-/
structure Priv where
  xtal : UInt32
  rafaelChip : Chip
  regs : Nat → Byte
  xtalCapSel : XtalCap
  intFreq : UInt32
  filCalCode : Byte
  input : Byte
  hasLock : Bool
  initDone : Bool
  blogV4 : Bool
  bus : Bus

/-- `REG_SHADOW_START` and `NUM_REGS`: the registers that are shadowed. -/
def Shadowed (reg : Nat) : Prop :=
  5 ≤ reg ∧ reg < 35

instance (reg : Nat) : Decidable (Shadowed reg) :=
  inferInstanceAs (Decidable (_ ∧ _))

/-- The addresses and values of bytes written from a register on. -/
def patch (reg : Nat) (val : List Byte) : Nat → Option Byte :=
  fun address => if reg ≤ address then val[address - reg]? else none

/-- `shadow_store`. -/
def shadowStore (reg : Nat) (val : List Byte) (priv : Priv) : Priv :=
  { priv with
    regs :=
      overlay
        (fun address =>
          if Shadowed address then patch reg val address else none)
        priv.regs }

/-- The result of a transfer that has failed: its code if negative, or -1. -/
def transferError (code : Int32) : Int32 :=
  if code < 0 then code else -1

namespace Priv

/-- A transfer that writes bytes from a register on is done. -/
def sent (reg : Nat) (val : List Byte) (priv : Priv) : Priv :=
  { priv with
    bus :=
      { priv.bus with
        chip := overlay (patch reg val) priv.bus.chip
        writes := priv.bus.writes + 1 } }

/-- A transfer that writes has failed. -/
def missed (priv : Priv) : Priv :=
  { priv with bus := { priv.bus with writes := priv.bus.writes + 1 } }

/-- A transfer that reads is over. -/
def received (priv : Priv) : Priv :=
  { priv with bus := { priv.bus with reads := priv.bus.reads + 1 } }

end Priv

/-- One message to the chip: the first register and the bytes for it and the next. -/
def sendMessage (reg : Nat) (val : List Byte) : Checked Priv Unit := do
  let priv ← get
  match priv.bus.writeAnswers priv.bus.writes with
  | .done => modify (Priv.sent reg val)
  | .failed code => do
      modify Priv.missed
      throw (transferError code)

/-- So many messages of `max_i2c_msg_len - 1` bytes, which is 7. -/
def sendMessages : Nat → Nat → List Byte → Checked Priv Unit
  | 0, _, _ => pure ()
  | messages + 1, reg, val => do
      sendMessage reg (val.take 7)
      sendMessages messages (reg + 7) (val.drop 7)

/-- `r82xx_write`. -/
def write (reg : Nat) (val : List Byte) : Checked Priv Unit := do
  modify (shadowStore reg val)
  sendMessages ((val.length + 6) / 7) reg val

/-- `r82xx_write_reg`. -/
def writeReg (reg : Nat) (val : Byte) : Checked Priv Unit :=
  write reg [val]

/-- `r82xx_write_reg_mask`. -/
def writeRegMask (reg : Nat) (val bitMask : Byte) : Checked Priv Unit := do
  let priv ← get
  if Shadowed reg then
    write reg [merge (priv.regs reg) val bitMask]
  else
    throw (-1)

/-- The table `lut` of `r82xx_bitrev`. -/
def bitrevLut : List Byte :=
  [0x0, 0x8, 0x4, 0xc, 0x2, 0xa, 0x6, 0xe,
    0x1, 0x9, 0x5, 0xd, 0x3, 0xb, 0x7, 0xf]

/-- `r82xx_bitrev`. -/
def bitrev (byte : Byte) : Byte :=
  bitrevLut.getD (byte &&& 0xf).toNat 0 <<< 4 |||
    bitrevLut.getD (byte >>> 4).toNat 0

/-- `r82xx_read`; the register pointer is written first. -/
def read (reg : Nat) : Checked Priv (Nat → Byte) := do
  sendMessage reg []
  let priv ← get
  modify Priv.received
  match priv.bus.readAnswers priv.bus.reads with
  | (.done, data) => return fun index => bitrev (data index)
  | (.failed code, _) => throw (transferError code)

/-- Calls of `r82xx_write_reg_mask` in a row, up to the first that fails. -/
def writeMasks : List (MaskedWrite Nat 8) → Checked Priv Unit
  | [] => pure ()
  | first :: rest => do
      writeRegMask first.reg first.val first.mask
      writeMasks rest

/-- Calls of `r82xx_write_reg` in a row, up to the first that fails. -/
def writeRegs : List (Nat × Byte) → Checked Priv Unit
  | [] => pure ()
  | first :: rest => do
      writeReg first.1 first.2
      writeRegs rest

/-- The registers with those of a footprint forgotten. -/
def hide (footprint : List Nat) (content : Nat → Byte) : Nat → Byte :=
  fun reg => if reg ∈ footprint then 0 else content reg

namespace Priv

/--
The tuner with everything forgotten that register accesses to a footprint and
the PLL change.
-/
def outside (footprint : List Nat) (priv : Priv) : Priv :=
  { priv with
    hasLock := false
    regs := hide footprint priv.regs
    bus :=
      { priv.bus with
        chip := hide footprint priv.bus.chip
        writes := 0
        reads := 0 } }

/-- Every transfer succeeds. -/
structure AllDone (priv : Priv) : Prop where
  writes : ∀ place, priv.bus.writeAnswers place = .done
  reads : ∀ place, (priv.bus.readAnswers place).1 = .done

/-- The shadow registers hold what the chip holds. -/
def Coherent (priv : Priv) : Prop :=
  ∀ reg, Shadowed reg → priv.bus.chip reg = priv.regs reg

end Priv

section Footprints

variable {footprint larger : List Nat}

/-- What a larger footprint forgets it does not matter to forget before. -/
theorem hide_hide
    (subset : footprint ⊆ larger)
    (content : Nat → Byte) :
    hide larger (hide footprint content) = hide larger content := by
  funext reg
  unfold hide
  by_cases member : reg ∈ larger
  · rw [if_pos member, if_pos member]
  · rw [if_neg member, if_neg member,
      if_neg (fun inside => member (subset inside))]

/-- Bytes written inside a footprint are forgotten with it. -/
theorem hide_overlay
    {change : Nat → Option Byte}
    (inside : ∀ reg, reg ∉ footprint → change reg = none)
    (content : Nat → Byte) :
    hide footprint (overlay change content) = hide footprint content := by
  funext reg
  unfold hide
  by_cases member : reg ∈ footprint
  · rw [if_pos member, if_pos member]
  · rw [if_neg member, if_neg member,
      overlay_of_none (inside reg member)]

/-- What is left alone outside a footprint is left alone outside a larger one. -/
theorem Priv.outside_of_subset
    (subset : footprint ⊆ larger)
    {before after : Priv}
    (same : after.outside footprint = before.outside footprint) :
    after.outside larger = before.outside larger := by
  have forget :
      ∀ priv : Priv,
        (priv.outside footprint).outside larger = priv.outside larger := by
    intro priv
    unfold Priv.outside
    simp only [hide_hide subset]
  rw [← forget, same, forget]

/-- A program stays within a footprint. -/
abbrev Within
    {Value : Type}
    (footprint : List Nat)
    (program : Checked Priv Value) : Prop :=
  Confined (Priv.outside footprint) program.run

theorem Within.mono
    {Value : Type}
    {program : Checked Priv Value}
    (subset : footprint ⊆ larger)
    (within : Within footprint program) :
    Within larger program where
  keeps _ _ _ yields := Priv.outside_of_subset subset (within.keeps yields)
  flat := within.flat

/-- The bytes of a message stay within a footprint. -/
def Covers (footprint : List Nat) (reg : Nat) (val : List Byte) : Prop :=
  ∀ index < val.length, reg + index ∈ footprint

instance (footprint : List Nat) (reg : Nat) (val : List Byte) :
    Decidable (Covers footprint reg val) :=
  inferInstanceAs (Decidable (∀ index < val.length, _))

theorem Covers.patch_none
    {reg : Nat}
    {val : List Byte}
    (covers : Covers footprint reg val)
    (address : Nat)
    (outside : address ∉ footprint) :
    patch reg val address = none := by
  unfold patch
  by_cases after : reg ≤ address
  · rw [if_pos after]
    refine List.getElem?_eq_none (Nat.not_lt.mp (fun inside => outside ?_))
    have member := covers (address - reg) inside
    rwa [Nat.add_sub_cancel' after] at member
  · exact if_neg after

theorem Priv.missed_outside
    (priv : Priv) :
    priv.missed.outside footprint = priv.outside footprint :=
  rfl

theorem Priv.received_outside
    (priv : Priv) :
    priv.received.outside footprint = priv.outside footprint :=
  rfl

theorem sendMessage_within
    {reg : Nat}
    {val : List Byte}
    (covers : Covers footprint reg val) :
    Within footprint (sendMessage reg val) := by
  have sent :
      ∀ priv : Priv,
        (priv.sent reg val).outside footprint = priv.outside footprint := by
    intro priv
    unfold Priv.outside Priv.sent
    simp only [hide_overlay covers.patch_none]
  refine Confined.runGet.runBind (fun priv => ?_)
  split
  · exact Confined.runModify sent
  · exact (Confined.runModify Priv.missed_outside).runBind
      (fun _ => Confined.runThrow _)

theorem sendMessages_within
    {messages reg : Nat}
    {val : List Byte}
    (covers : Covers footprint reg val) :
    Within footprint (sendMessages messages reg val) := by
  induction messages generalizing reg val with
  | zero =>
      exact Confined.runPure _
  | succ messages inductionHypothesis =>
      have now : Covers footprint reg (val.take 7) := by
        intro index inside
        rw [List.length_take] at inside
        exact covers index (by omega)
      have later : Covers footprint (reg + 7) (val.drop 7) := by
        intro index inside
        rw [List.length_drop] at inside
        have member := covers (7 + index) (by omega)
        rwa [← Nat.add_assoc] at member
      exact (sendMessage_within now).runBind
        (fun _ => inductionHypothesis later)

theorem write_within
    {reg : Nat}
    {val : List Byte}
    (covers : Covers footprint reg val) :
    Within footprint (write reg val) := by
  have stored :
      ∀ priv : Priv,
        (shadowStore reg val priv).outside footprint =
          priv.outside footprint := by
    intro priv
    have inside :
        ∀ address, address ∉ footprint →
          (if Shadowed address then patch reg val address else none) =
            none := by
      intro address outside
      rw [covers.patch_none address outside, ite_self]
    unfold Priv.outside shadowStore
    simp only [hide_overlay inside]
  exact (Confined.runModify stored).runBind
    (fun _ => sendMessages_within covers)

/-- One byte stays within a footprint that has its register. -/
theorem covers_singleton
    {reg : Nat}
    {val : Byte}
    (member : reg ∈ footprint) :
    Covers footprint reg [val] := by
  intro index inside
  rw [List.length_singleton, Nat.lt_one_iff] at inside
  rwa [inside, Nat.add_zero]

theorem writeReg_within
    {reg : Nat}
    {val : Byte}
    (member : reg ∈ footprint) :
    Within footprint (writeReg reg val) :=
  write_within (covers_singleton member)

theorem writeRegMask_within
    {reg : Nat}
    {val bitMask : Byte}
    (member : reg ∈ footprint) :
    Within footprint (writeRegMask reg val bitMask) := by
  refine Confined.runGet.runBind (fun priv => ?_)
  split
  · exact write_within (covers_singleton member)
  · exact Confined.runThrow _

theorem read_within
    {reg : Nat} :
    Within footprint (read reg) := by
  refine (sendMessage_within (fun index inside => by cases inside)).runBind
    (fun _ => Confined.runGet.runBind (fun priv =>
      (Confined.runModify Priv.received_outside).runBind (fun _ => ?_)))
  split
  · exact Confined.runPure _
  · exact Confined.runThrow _

theorem writeMasks_within
    {writes : List (MaskedWrite Nat 8)}
    (members : ∀ write ∈ writes, write.reg ∈ footprint) :
    Within footprint (writeMasks writes) := by
  induction writes with
  | nil =>
      exact Confined.runPure _
  | cons first rest inductionHypothesis =>
      exact (writeRegMask_within (members first List.mem_cons_self)).runBind
        (fun _ => inductionHypothesis
          (fun other member => members other (List.mem_cons_of_mem _ member)))

theorem writeRegs_within
    {writes : List (Nat × Byte)}
    (members : ∀ write ∈ writes, write.1 ∈ footprint) :
    Within footprint (writeRegs writes) := by
  induction writes with
  | nil =>
      exact Confined.runPure _
  | cons first rest inductionHypothesis =>
      exact (writeReg_within (members first List.mem_cons_self)).runBind
        (fun _ => inductionHypothesis
          (fun other member => members other (List.mem_cons_of_mem _ member)))

end Footprints

section Success

variable {before after : Priv}

/-- What a write does when its transfers succeed. -/
def Priv.written (reg : Nat) (val : List Byte) (priv : Priv) : Priv :=
  { shadowStore reg val priv with
    bus :=
      { priv.bus with
        chip := overlay (patch reg val) priv.bus.chip
        writes := priv.bus.writes + (val.length + 6) / 7 } }

/-- What a list of masked writes does when their transfers succeed. -/
def Priv.masked (writes : List (MaskedWrite Nat 8)) (priv : Priv) : Priv :=
  writes.foldl
    (fun priv write =>
      priv.written write.reg [merge (priv.regs write.reg) write.val write.mask])
    priv

/-- The first bytes of a message and the rest of it are written one after the other. -/
theorem overlay_patch_split
    (reg count : Nat)
    (val : List Byte)
    (content : Nat → Byte) :
    overlay (patch (reg + count) (val.drop count))
        (overlay (patch reg (val.take count)) content) =
      overlay (patch reg val) content := by
  funext address
  unfold overlay patch
  by_cases after : reg + count ≤ address
  · have index : count + (address - (reg + count)) = address - reg := by
      omega
    have past : (val.take count)[address - reg]? = none :=
      List.getElem?_eq_none (by rw [List.length_take]; omega)
    rw [if_pos after, if_pos (by omega), if_pos (by omega),
      List.getElem?_drop, index, past]
    rfl
  · rw [if_neg after]
    by_cases inside : reg ≤ address
    · rw [if_pos inside, if_pos inside, List.getElem?_take,
        if_pos (by omega)]
      rfl
    · rw [if_neg inside, if_neg inside]
      rfl

theorem yields_sendMessage
    (done : before.AllDone)
    {reg : Nat}
    {val : List Byte}
    {answer : Except Int32 Unit} :
    Yields (sendMessage reg val).run before answer after ↔
      .ok () = answer ∧ before.sent reg val = after := by
  unfold sendMessage
  simp only [yields_run_bind, yields_run_get, reduceCtorEq, false_and,
    exists_false, false_or, Except.ok.injEq]
  constructor
  · rintro ⟨priv, middle, ⟨rfl, rfl⟩, yields⟩
    rw [done.writes] at yields
    exact yields_run_modify.mp yields
  · intro outcome
    refine ⟨before, before, ⟨rfl, rfl⟩, ?_⟩
    rw [done.writes]
    exact yields_run_modify.mpr outcome

theorem yields_sendMessages
    (done : before.AllDone)
    {messages reg : Nat}
    {val : List Byte}
    (enough : val.length ≤ 7 * messages)
    {answer : Except Int32 Unit} :
    Yields (sendMessages messages reg val).run before answer after ↔
      .ok () = answer ∧
        ({ before with
          bus :=
            { before.bus with
              chip := overlay (patch reg val) before.bus.chip
              writes := before.bus.writes + messages } } : Priv) = after := by
  induction messages generalizing before reg val with
  | zero =>
      have empty : val = [] := List.length_eq_zero_iff.mp (by omega)
      subst empty
      have unchanged :
          overlay (patch reg []) before.bus.chip = before.bus.chip := by
        funext address
        exact overlay_of_none (by simp [patch])
      rw [unchanged]
      exact yields_run_pure
  | succ messages inductionHypothesis =>
      unfold sendMessages
      have rest :
          (val.drop 7).length ≤ 7 * messages := by
        rw [List.length_drop]
        omega
      have sentDone : (before.sent reg (val.take 7)).AllDone :=
        ⟨done.writes, done.reads⟩
      simp only [yields_run_bind, yields_sendMessage done, reduceCtorEq,
        false_and, exists_false, false_or, true_and]
      constructor
      · rintro ⟨_, middle, ⟨_, rfl⟩, yields⟩
        rcases (inductionHypothesis sentDone rest).mp yields with
          ⟨same, rfl⟩
        refine ⟨same, ?_⟩
        unfold Priv.sent
        simp only [overlay_patch_split, Nat.add_assoc,
          Nat.add_comm messages 1]
      · rintro ⟨same, rfl⟩
        refine ⟨(), _, rfl,
          (inductionHypothesis sentDone rest).mpr ⟨same, ?_⟩⟩
        unfold Priv.sent
        simp only [overlay_patch_split, Nat.add_assoc,
          Nat.add_comm messages 1]

theorem yields_write
    (done : before.AllDone)
    {reg : Nat}
    {val : List Byte}
    {answer : Except Int32 Unit} :
    Yields (write reg val).run before answer after ↔
      .ok () = answer ∧ before.written reg val = after := by
  unfold write
  have storedDone : (shadowStore reg val before).AllDone :=
    ⟨done.writes, done.reads⟩
  simp only [yields_run_bind, yields_run_modify, reduceCtorEq, false_and,
    exists_false, false_or, true_and]
  constructor
  · rintro ⟨_, _, ⟨_, rfl⟩, yields⟩
    exact (yields_sendMessages storedDone (by omega)).mp yields
  · intro outcome
    exact ⟨⟨⟩, _, rfl,
      (yields_sendMessages storedDone (by omega)).mpr outcome⟩

theorem yields_writeReg
    (done : before.AllDone)
    {reg : Nat}
    {val : Byte}
    {answer : Except Int32 Unit} :
    Yields (writeReg reg val).run before answer after ↔
      .ok () = answer ∧ before.written reg [val] = after :=
  yields_write done

theorem yields_writeMasks
    (done : before.AllDone)
    {writes : List (MaskedWrite Nat 8)}
    (shadowed : ∀ write ∈ writes, Shadowed write.reg)
    {answer : Except Int32 Unit} :
    Yields (writeMasks writes).run before answer after ↔
      .ok () = answer ∧ before.masked writes = after := by
  induction writes generalizing before with
  | nil =>
      exact yields_run_pure
  | cons first rest inductionHypothesis =>
      have firstShadowed := shadowed first List.mem_cons_self
      have restShadowed : ∀ write ∈ rest, Shadowed write.reg :=
        fun write member => shadowed write (List.mem_cons_of_mem _ member)
      have writtenDone :
          ∀ val, (before.written first.reg val).AllDone :=
        fun val => ⟨done.writes, done.reads⟩
      unfold writeMasks writeRegMask
      simp only [yields_run_bind, yields_run_get, if_pos firstShadowed,
        reduceCtorEq, false_and, exists_false, false_or, Except.ok.injEq]
      constructor
      · rintro (⟨code, ⟨_, _, ⟨rfl, rfl⟩, failed⟩, _⟩ |
          ⟨_, middle, ⟨_, _, ⟨rfl, rfl⟩, wrote⟩, later⟩)
        · rcases (yields_write done).mp failed with ⟨absurdity, _⟩
          cases absurdity
        · rcases (yields_write done).mp wrote with ⟨_, rfl⟩
          exact (inductionHypothesis (writtenDone _) restShadowed).mp later
      · intro outcome
        exact Or.inr ⟨(), _,
          ⟨before, before, ⟨rfl, rfl⟩, (yields_write done).mpr ⟨rfl, rfl⟩⟩,
          (inductionHypothesis (writtenDone _) restShadowed).mpr outcome⟩

/-- Without the bytes read, a read only moves on in the script. -/
theorem yields_read
    (done : before.AllDone)
    {reg : Nat}
    {answer : Except Int32 (Nat → Byte)} :
    Yields (read reg).run before answer after ↔
      .ok (fun index =>
          bitrev ((before.bus.readAnswers before.bus.reads).2 index)) =
          answer ∧
        (before.sent reg []).received = after := by
  unfold read
  have answered :
      before.bus.readAnswers before.bus.reads =
        (.done, (before.bus.readAnswers before.bus.reads).2) :=
    Prod.ext (done.reads _) rfl
  simp only [yields_run_bind, yields_sendMessage done, yields_run_get,
    yields_run_modify, reduceCtorEq, false_and, exists_false, false_or,
    Except.ok.injEq]
  constructor
  · rintro ⟨_, _, ⟨_, rfl⟩, _, _, ⟨rfl, rfl⟩, _, _, ⟨_, rfl⟩, yields⟩
    change Yields (ExceptT.run (match before.bus.readAnswers before.bus.reads with
      | (.done, data) => _
      | (.failed code, _) => _)) _ _ _ at yields
    rw [answered] at yields
    exact yields_run_pure.mp yields
  · rintro outcome
    refine ⟨(), _, ⟨trivial, rfl⟩, _, _, ⟨rfl, rfl⟩, ⟨⟩, _,
      ⟨trivial, rfl⟩, ?_⟩
    change Yields (ExceptT.run (match before.bus.readAnswers before.bus.reads with
      | (.done, data) => _
      | (.failed code, _) => _)) _ _ _
    rw [answered]
    exact yields_run_pure.mpr outcome

end Success

end LibRtlSdr.R82xx
