import LibRtlSdr.R82xxSettings

namespace LibRtlSdr.R82xx

open DriverProgram MaskedWrites OverlayWrites

/-!
# Accesses that have returned without an error

An access that returns zero has had all of its transfers done, whatever the
script says about others.  The registers of the chip are then those that it was
to write.
-/

section Registers

variable (before : Priv)

/-- The shadow registers after masked writes. -/
theorem masked_regs
    {writes : List (MaskedWrite Nat 8)}
    (shadowed : ∀ write ∈ writes, Shadowed write.reg)
    (reg : Nat) :
    (before.masked writes).regs reg = valueAfter writes reg (before.regs reg) := by
  induction writes generalizing before with
  | nil =>
      rfl
  | cons first rest inductionHypothesis =>
      have later :=
        inductionHypothesis
          (before.written first.reg
            [merge (before.regs first.reg) first.val first.mask])
          (fun write member => shadowed write (List.mem_cons_of_mem _ member))
      rw [regs_written before (shadowed first List.mem_cons_self)] at later
      refine later.trans ?_
      unfold valueAfter
      rw [List.foldl_cons, Function.update_apply]
      by_cases same : reg = first.reg
      · rw [if_pos same, if_pos same.symm, same]
      · rw [if_neg same, if_neg (Ne.symm same)]

/-- A register of the chip that no masked write names keeps its content. -/
theorem masked_chip_of_untouched
    {writes : List (MaskedWrite Nat 8)}
    {reg : Nat}
    (untouched : ∀ write ∈ writes, write.reg ≠ reg) :
    (before.masked writes).bus.chip reg = before.bus.chip reg := by
  induction writes generalizing before with
  | nil =>
      rfl
  | cons first rest inductionHypothesis =>
      refine (inductionHypothesis _ fun write member =>
        untouched write (List.mem_cons_of_mem _ member)).trans ?_
      rw [chip_written, Function.update_of_ne]
      exact (untouched first List.mem_cons_self).symm

/-- A register of the chip that a masked write names holds its shadow register. -/
theorem masked_chip
    {writes : List (MaskedWrite Nat 8)}
    (shadowed : ∀ write ∈ writes, Shadowed write.reg)
    {reg : Nat}
    (named : ∃ write ∈ writes, write.reg = reg) :
    (before.masked writes).bus.chip reg = valueAfter writes reg (before.regs reg) := by
  rw [← masked_regs before shadowed]
  induction writes generalizing before with
  | nil =>
      rcases named with ⟨write, absurdity, _⟩
      cases absurdity
  | cons first rest inductionHypothesis =>
      have restShadowed : ∀ write ∈ rest, Shadowed write.reg :=
        fun write member => shadowed write (List.mem_cons_of_mem _ member)
      by_cases again : ∃ write ∈ rest, write.reg = reg
      · exact inductionHypothesis _ restShadowed again
      · have untouched : ∀ write ∈ rest, write.reg ≠ reg :=
          fun write member same => again ⟨write, member, same⟩
        have isFirst : first.reg = reg := by
          rcases named with ⟨write, member, same⟩
          rcases List.mem_cons.mp member with rfl | later
          · exact same
          · exact absurd same (untouched write later)
        have middle :
            (before.masked (first :: rest)).regs reg =
              Function.update before.regs first.reg
                (merge (before.regs first.reg) first.val first.mask) reg := by
          refine (masked_regs _ restShadowed reg).trans ?_
          rw [valueAfter_of_untouched untouched,
            regs_written before (shadowed first List.mem_cons_self)]
        refine (masked_chip_of_untouched _ untouched).trans ?_
        rw [chip_written, middle, ← isFirst, Function.update_self,
          Function.update_self]

end Registers

section Success

variable {before after : Priv}

theorem sendMessage_ok
    {reg : Nat}
    {val : List Byte}
    (yields : Yields (sendMessage reg val).run before (.ok ()) after) :
    after = before.sent reg val := by
  unfold sendMessage at yields
  rw [yields_run_bind_ok (yields_run_get.mpr ⟨rfl, rfl⟩)] at yields
  cases answer : before.bus.writeAnswers before.bus.writes with
  | done =>
      rw [answer] at yields
      exact (yields_run_modify.mp yields).2.symm
  | failed code =>
      rw [answer] at yields
      rcases yields_run_bind.mp yields with
        ⟨_, _, absurdity⟩ | ⟨_, _, _, thrown⟩
      · cases absurdity
      · cases (yields_run_throw.mp thrown).1

/-- A write of one message stores the bytes in the shadow registers and on the chip. -/
theorem write_ok
    {reg : Nat}
    {val : Byte}
    (yields : Yields (write reg [val]).run before (.ok ()) after) :
    after = before.written reg [val] := by
  unfold write at yields
  rw [yields_run_bind_ok (yields_run_modify.mpr ⟨rfl, rfl⟩)] at yields
  have oneMessage : ([val].length + 6) / 7 = 0 + 1 := by
    rw [List.length_singleton]
  rw [oneMessage, sendMessages] at yields
  rcases parts_of_yields_ok yields with ⟨_, middle, sent, rest⟩
  have same := sendMessage_ok sent
  have ended := (yields_run_pure.mp rest).2
  unfold Priv.written
  rw [← ended, same, oneMessage]
  rfl

theorem writeMasks_ok
    {writes : List (MaskedWrite Nat 8)}
    (yields : Yields (writeMasks writes).run before (.ok ()) after) :
    after = before.masked writes := by
  induction writes generalizing before with
  | nil =>
      exact (yields_run_pure.mp yields).2.symm
  | cons first rest inductionHypothesis =>
      unfold writeMasks at yields
      rcases parts_of_yields_ok yields with ⟨_, middle, wrote, later⟩
      unfold writeRegMask at wrote
      rw [yields_run_bind_ok (yields_run_get.mpr ⟨rfl, rfl⟩)] at wrote
      split at wrote
      · rw [inductionHypothesis later, write_ok wrote]
        rfl
      · cases (yields_run_throw.mp wrote).1

/-- A read has moved on in the script and returns what the chip has reported. -/
theorem read_ok
    {reg : Nat}
    {data : Nat → Byte}
    (yields : Yields (read reg).run before (.ok data) after) :
    data =
        (fun index =>
          bitrev ((before.bus.readAnswers before.bus.reads).2 index)) ∧
      after = (before.sent reg []).received := by
  unfold read at yields
  rcases parts_of_yields_ok yields with ⟨_, middle, sent, later⟩
  have same := sendMessage_ok sent
  subst same
  rw [yields_run_bind_ok (yields_run_get.mpr ⟨rfl, rfl⟩),
    yields_run_bind_ok (yields_run_modify.mpr ⟨rfl, rfl⟩)] at later
  split at later
  · rename_i reported answer
    have shown :
        before.bus.readAnswers before.bus.reads = (.done, reported) :=
      answer
    rcases yields_run_pure.mp later with ⟨same, ended⟩
    rw [shown]
    exact ⟨(Except.ok.inj same).symm, ended.symm⟩
  · cases (yields_run_throw.mp later).1

/-- Registers outside of its footprint a program leaves on the chip. -/
theorem Within.chip
    {Value : Type}
    {footprint : List Nat}
    {program : Checked Priv Value}
    {answer : Except Int32 Value}
    (within : Within footprint program)
    (yields : Yields program.run before answer after)
    {reg : Nat}
    (outside : reg ∉ footprint) :
    after.bus.chip reg = before.bus.chip reg := by
  have same := congrArg (fun priv : Priv => priv.bus.chip reg) (within.keeps yields)
  simpa [Priv.outside, hide, outside] using same

end Success

/-! ## Accesses whose transfers succeed -/

namespace Priv.AllDone

variable {before : Priv}

theorem writeMasks
    (done : before.AllDone)
    {writes : List (MaskedWrite Nat 8)}
    (shadowed : ∀ write ∈ writes, Shadowed write.reg) :
    Returns (R82xx.writeMasks writes).run before (.ok ()) Priv.AllDone :=
  ⟨before.masked writes,
    (yields_writeMasks done shadowed).mpr ⟨rfl, rfl⟩, done.masked writes⟩

theorem writeReg
    (done : before.AllDone)
    (reg : Nat)
    (val : Byte) :
    Returns (R82xx.writeReg reg val).run before (.ok ()) Priv.AllDone :=
  ⟨before.written reg [val],
    (yields_writeReg done).mpr ⟨rfl, rfl⟩, done.written reg [val]⟩

/-- A read returns what the chip reports next. -/
theorem read
    (done : before.AllDone)
    (reg : Nat) :
    Returns (R82xx.read reg).run before
      (.ok fun index =>
        bitrev ((before.bus.readAnswers before.bus.reads).2 index))
      Priv.AllDone :=
  ⟨(before.sent reg []).received, (yields_read done).mpr ⟨rfl, rfl⟩,
    ⟨done.writes, done.reads⟩⟩

end Priv.AllDone

end LibRtlSdr.R82xx
