import LibRtlSdr.R82xxShadow
import LibRtlSdr.R82xxPllRange

namespace LibRtlSdr.R82xx

open DriverProgram MaskedWrites OverlayWrites PartialRun

/-!
# The shadow registers when transfers fail

`r82xx_write` stores its bytes in the shadow registers before it sends them.  A
transfer that fails leaves the shadow registers with bytes that the chip does
not hold, unless it holds them already; from then on the masked writes of every
function bring those bytes to the chip.
-/

/-- From now on the transfers are answered by these scripts. -/
def Priv.answering
    (writeAnswers : Nat → Transfer)
    (readAnswers : Nat → Transfer × (Nat → Byte))
    (priv : Priv) : Priv :=
  { priv with
    bus :=
      { priv.bus with
        writeAnswers := writeAnswers
        readAnswers := readAnswers } }

/-- A write of these bytes fails, and the chip does not hold all of them already. -/
def Priv.Misses (priv : Priv) (reg : Nat) (val : List Byte) : Prop :=
  priv.bus.writeAnswers priv.bus.writes ≠ .done ∧
    ∃ address byte,
      Shadowed address ∧
        patch reg val address = some byte ∧
        priv.bus.chip address ≠ byte

namespace Accesses

/-- A write of the program, when it starts in the state `before`, misses the chip. -/
def Drops :
    {Value : Type} →
    {program : Checked Priv Value} →
    Accesses program →
    (before : Priv) →
    Prop
  | _, _, .writeRegMask reg val bitMask, before =>
      Shadowed reg ∧ before.Misses reg [merge (before.regs reg) val bitMask]
  | _, _, .write reg val, before =>
      before.Misses reg val
  | _, _, @bind _ _ program _ first second, before =>
      first.Drops before ∨
        ∃ value middle,
          Yields program.run before (.ok value) middle ∧
            (second value).Drops middle
  | _, _, .outcome accesses, before =>
      accesses.Drops before
  | _, _, @ite _ condition _ _ _ ifTrue ifFalse, before =>
      (condition ∧ ifTrue.Drops before) ∨
        (¬ condition ∧ ifFalse.Drops before)
  | _, _, _, _ =>
      False

/-- Each write is one message, and the first that fails ends the program. -/
def Prompt :
    {Value : Type} →
    {program : Checked Priv Value} →
    Accesses program →
    Prop
  | _, _, .shadowStore _ _ =>
      False
  | _, _, .write _ val =>
      val.length ≤ 7
  | _, _, .bind first second =>
      first.Prompt ∧ ∀ value, (second value).Prompt
  | _, _, .outcome _ =>
      False
  | _, _, @ite _ _ _ _ _ ifTrue ifFalse =>
      ifTrue.Prompt ∧ ifFalse.Prompt
  | _, _, _ =>
      True

section Promptness

theorem writeMasks_prompt
    (writes : List (MaskedWrite Nat 8)) :
    (writeMasks writes).Prompt := by
  induction writes with
  | nil =>
      exact True.intro
  | cons first rest inductionHypothesis =>
      exact ⟨True.intro, fun _ => inductionHypothesis⟩

/-- A single byte is one message. -/
theorem writeReg_prompt
    (reg : Nat)
    (val : Byte) :
    (write reg [val]).Prompt :=
  (by decide : 1 ≤ 7)

theorem setMux_prompt (freq : UInt32) : (setMux freq).Prompt :=
  ⟨writeMasks_prompt _, fun _ =>
    ⟨writeReg_prompt _ _, fun _ => ⟨True.intro, fun _ => writeMasks_prompt _⟩⟩⟩

theorem waitForLock_prompt : waitForLock.Prompt :=
  ⟨True.intro, fun _ =>
    ⟨True.intro, writeMasks_prompt _, fun _ =>
      ⟨True.intro, fun _ => True.intro⟩⟩⟩

theorem sdmLoop_prompt
    (pllRefKhz : UInt32)
    (shifts : Nat)
    (fra : UInt32)
    (sdm : UInt16) :
    (sdmLoop pllRefKhz shifts fra sdm).Prompt := by
  induction shifts generalizing fra sdm with
  | zero =>
      exact ⟨True.intro, True.intro⟩
  | succ shifts inductionHypothesis =>
      exact ⟨⟨⟨True.intro, inductionHypothesis _ _⟩,
        inductionHypothesis _ _⟩, True.intro⟩

theorem setPll_prompt (freq : UInt32) : (setPll freq).Prompt := by
  refine ⟨True.intro, fun _ => ⟨writeMasks_prompt _, fun _ =>
    ⟨True.intro, fun _ => ⟨writeMasks_prompt _, fun _ =>
      ⟨True.intro, True.intro, ?_⟩⟩⟩⟩⟩
  refine ⟨writeReg_prompt _ _, fun _ => ⟨writeMasks_prompt _, fun _ =>
    ⟨sdmLoop_prompt _ _ _ _, fun _ => ⟨writeReg_prompt _ _, fun _ =>
      ⟨writeReg_prompt _ _, fun _ => ⟨waitForLock_prompt, fun _ => ?_⟩⟩⟩⟩⟩⟩
  exact ⟨⟨True.intro, fun _ => writeMasks_prompt _⟩, True.intro⟩

theorem setGain_prompt
    (setManualGain : Bool)
    (gain : Int) :
    (setGain setManualGain gain).Prompt :=
  ⟨⟨writeMasks_prompt _, fun _ =>
      ⟨True.intro, fun _ => writeMasks_prompt _⟩⟩,
    writeMasks_prompt _⟩

theorem setBandwidth_prompt (bw : Int) : (setBandwidth bw).Prompt :=
  ⟨True.intro, fun _ => ⟨writeMasks_prompt _, fun _ =>
    ⟨True.intro, fun _ => True.intro⟩⟩⟩

theorem selectInput_prompt (freq : UInt32) : (selectInput freq).Prompt := by
  refine ⟨True.intro, fun _ => ⟨⟨writeMasks_prompt _, fun _ => ?_⟩, ?_⟩⟩
  · exact ⟨⟨True.intro, fun _ => writeMasks_prompt _⟩, True.intro⟩
  · exact ⟨⟨True.intro, fun _ => writeMasks_prompt _⟩, True.intro⟩

theorem setFreq_prompt (freq : UInt32) : (setFreq freq).Prompt :=
  ⟨True.intro, fun _ => ⟨setMux_prompt _, fun _ =>
    ⟨setPll_prompt _, fun _ => ⟨True.intro, fun _ =>
      ⟨selectInput_prompt freq, True.intro⟩⟩⟩⟩⟩

end Promptness

end Accesses

section Writes

variable {before after : Priv} {reg : Nat} {val : List Byte}

/-- A message is sent or missed, as the script says. -/
theorem sendMessage_outcome
    {answer : Except Int32 Unit}
    (yields : Yields (sendMessage reg val).run before answer after) :
    (before.bus.writeAnswers before.bus.writes = .done ∧
        answer = .ok () ∧ after = before.sent reg val) ∨
      (before.bus.writeAnswers before.bus.writes ≠ .done ∧
        (∃ code, answer = .error code) ∧ after = before.missed) := by
  unfold sendMessage at yields
  rw [yields_run_bind_ok (yields_run_get.mpr ⟨rfl, rfl⟩)] at yields
  cases transfer : before.bus.writeAnswers before.bus.writes with
  | done =>
      rw [transfer] at yields
      rcases yields_run_modify.mp yields with ⟨ok, sent⟩
      exact Or.inl ⟨rfl, ok.symm, sent.symm⟩
  | failed code =>
      rw [transfer] at yields
      rw [yields_run_bind_ok (yields_run_modify.mpr ⟨rfl, rfl⟩)] at yields
      rcases yields_run_throw.mp yields with ⟨failed, missed⟩
      exact Or.inr ⟨Transfer.noConfusion, ⟨_, failed.symm⟩, missed.symm⟩

/-- A short write sends its bytes behind the shadow registers, or misses the chip. -/
theorem write_outcome
    (short : val.length ≤ 7)
    {answer : Except Int32 Unit}
    (yields : Yields (write reg val).run before answer after) :
    (answer = .ok () ∧ after = before.written reg val ∧
        (val ≠ [] → before.bus.writeAnswers before.bus.writes = .done)) ∨
      (before.bus.writeAnswers before.bus.writes ≠ .done ∧
        (∃ code, answer = .error code) ∧
        after = (shadowStore reg val before).missed) := by
  unfold write at yields
  rw [yields_run_bind_ok (yields_run_modify.mpr ⟨rfl, rfl⟩)] at yields
  cases val with
  | nil =>
      rcases yields_run_pure.mp yields with ⟨ok, stored⟩
      refine Or.inl ⟨ok.symm, ?_, fun notNil => absurd rfl notNil⟩
      rw [← stored]
      unfold Priv.written
      rw [patch_nil]
      rfl
  | cons byte rest =>
      have one : ((byte :: rest).length + 6) / 7 = 1 := by
        rw [List.length_cons] at short ⊢
        omega
      have whole : (byte :: rest).take 7 = byte :: rest :=
        List.take_of_length_le short
      rw [one] at yields
      unfold sendMessages at yields
      rw [whole] at yields
      rcases yields_run_bind.mp yields with
        ⟨code, failed, isCode⟩ | ⟨nothing, sent, sends, ended⟩
      · rcases sendMessage_outcome failed with
          ⟨_, absurdity, _⟩ | ⟨fails, _, missed⟩
        · cases absurdity
        · exact Or.inr ⟨fails, ⟨code, isCode.symm⟩, missed⟩
      · rcases sendMessage_outcome sends with
          ⟨done, _, isSent⟩ | ⟨_, ⟨_, absurdity⟩, _⟩
        · rcases yields_run_pure.mp ended with ⟨ok, same⟩
          refine Or.inl ⟨ok.symm, ?_, fun _ => done⟩
          rw [← same, isSent]
          unfold Priv.written Priv.sent
          rw [one]
          rfl
        · cases absurdity

/-- A write keeps the shadow registers as the chip is, unless it misses the chip. -/
theorem write_coherent_iff
    (short : val.length ≤ 7)
    (coherent : before.Coherent)
    {answer : Except Int32 Unit}
    (yields : Yields (write reg val).run before answer after) :
    (after.Coherent ↔ ¬ before.Misses reg val) ∧
      (before.Misses reg val → ∃ code, answer = .error code) := by
  rcases write_outcome short yields with
    ⟨_, rfl, done⟩ | ⟨fails, failed, rfl⟩
  · have hits : ¬ before.Misses reg val := by
      rintro ⟨fails, address, byte, _, isByte, _⟩
      apply fails
      apply done
      rintro rfl
      rw [patch_nil] at isByte
      cases isByte
    exact ⟨⟨fun _ => hits, fun _ => coherent.written reg val⟩,
      fun misses => absurd misses hits⟩
  · refine ⟨⟨?_, ?_⟩, fun _ => failed⟩
    · rintro coherentStill ⟨_, address, byte, shadowed, isByte, differs⟩
      apply differs
      have same := coherentStill address shadowed
      exact same.trans (shadowStore_regs shadowed isByte)
    · intro hits address shadowed
      change before.bus.chip address = (shadowStore reg val before).regs address
      cases isByte : patch reg val address with
      | none =>
          unfold shadowStore overlay
          dsimp only
          rw [if_pos shadowed, isByte]
          exact coherent address shadowed
      | some byte =>
          rw [shadowStore_regs shadowed isByte]
          by_contra differs
          exact hits ⟨fails, address, byte, shadowed, isByte, differs⟩

/-- A masked write from a state in which the shadow registers hold what the chip holds. -/
theorem writeRegMask_coherent
    (coherent : before.Coherent)
    {bitMask byte : Byte}
    {answer : Except Int32 Unit}
    (yields : Yields (writeRegMask reg byte bitMask).run before answer after) :
    (after.Coherent ↔
        ¬ (Shadowed reg ∧
          before.Misses reg [merge (before.regs reg) byte bitMask])) ∧
      (Shadowed reg ∧
          before.Misses reg [merge (before.regs reg) byte bitMask] →
        ∃ code, answer = .error code) ∧
      OnlyMasked ⟨reg, byte, bitMask⟩ before after := by
  unfold writeRegMask at yields
  rw [yields_run_bind_ok (yields_run_get.mpr ⟨rfl, rfl⟩)] at yields
  have short : ∀ single : Byte, [single].length ≤ 7 :=
    fun _ => (by decide : 1 ≤ 7)
  split at yields
  · rename_i shadowed
    rcases write_coherent_iff (short _) coherent yields with
      ⟨stays, fails⟩
    refine ⟨?_, fun drops => fails drops.2, ?_⟩
    · rw [stays]
      exact not_congr (and_iff_right shadowed).symm
    · rw [← coherent reg shadowed] at yields
      rcases write_outcome (short _) yields with
        ⟨_, rfl, _⟩ | ⟨_, _, rfl⟩
      · exact onlyMasked_of_merge before reg byte bitMask
      · exact fun _ _ changed => absurd rfl changed
  · rename_i notShadowed
    rcases yields_run_throw.mp yields with ⟨_, rfl⟩
    exact ⟨⟨fun _ drops => notShadowed drops.1, fun _ => coherent⟩,
      fun drops => absurd drops.1 notShadowed,
      fun _ _ changed => absurd rfl changed⟩

/-- A read leaves the registers alone, whether it succeeds or not. -/
theorem read_coherent
    (coherent : before.Coherent)
    {answer : Except Int32 (Nat → Byte)}
    (yields : Yields (read reg).run before answer after) :
    after.Coherent := by
  have sent : (before.sent reg []).Coherent := by
    intro address shadowed
    unfold Priv.sent
    rw [patch_nil]
    exact coherent address shadowed
  unfold read at yields
  rcases yields_run_bind.mp yields with
    ⟨_, pointed, _⟩ | ⟨_, middle, pointed, yields⟩
  · rcases sendMessage_outcome pointed with ⟨_, _, rfl⟩ | ⟨_, _, rfl⟩
    · exact sent
    · exact coherent
  · rcases sendMessage_outcome pointed with ⟨_, _, rfl⟩ | ⟨_, ⟨_, absurdity⟩, _⟩
    · rw [yields_run_bind_ok (yields_run_get.mpr ⟨rfl, rfl⟩),
        yields_run_bind_ok (yields_run_modify.mpr ⟨rfl, rfl⟩)] at yields
      split at yields
      · rcases yields_run_pure.mp yields with ⟨_, rfl⟩
        exact sent
      · rcases yields_run_throw.mp yields with ⟨_, rfl⟩
        exact sent
    · cases absurdity

end Writes

section Dropping

variable {Value Result : Type} {before middle after : Priv}

/-- When the first part succeeds, the second one may drop a write. -/
theorem Accesses.drops_bind_ok
    {program : Checked Priv Value}
    {next : Value → Checked Priv Result}
    {first : Accesses program}
    {second : ∀ value, Accesses (next value)}
    {value : Value}
    (ran : Yields program.run before (.ok value) middle) :
    (Accesses.bind first second).Drops before ↔
      first.Drops before ∨ (second value).Drops middle := by
  constructor
  · rintro (drops | ⟨_, _, ranAgain, drops⟩)
    · exact Or.inl drops
    · rcases ran.functional ranAgain with ⟨same, rfl⟩
      cases same
      exact Or.inr drops
  · rintro (drops | drops)
    · exact Or.inl drops
    · exact Or.inr ⟨value, middle, ran, drops⟩

/-- When the first part fails, the second one is not reached. -/
theorem Accesses.drops_bind_error
    {program : Checked Priv Value}
    {next : Value → Checked Priv Result}
    {first : Accesses program}
    {second : ∀ value, Accesses (next value)}
    {code : Int32}
    (failed : Yields program.run before (.error code) after) :
    (Accesses.bind first second).Drops before ↔ first.Drops before := by
  constructor
  · rintro (drops | ⟨_, _, ran, _⟩)
    · exact drops
    · cases (ran.functional failed).1
  · exact Or.inl

theorem Accesses.drops_ite_true
    {condition : Prop}
    [Decidable condition]
    {first second : Checked Priv Value}
    {ifTrue : Accesses first}
    {ifFalse : Accesses second}
    (holds : condition) :
    (@Accesses.ite _ condition _ _ _ ifTrue ifFalse).Drops before ↔
      ifTrue.Drops before :=
  ⟨fun drops => drops.elim And.right fun drops => absurd holds drops.1,
    fun drops => Or.inl ⟨holds, drops⟩⟩

theorem Accesses.drops_ite_false
    {condition : Prop}
    [Decidable condition]
    {first second : Checked Priv Value}
    {ifTrue : Accesses first}
    {ifFalse : Accesses second}
    (fails : ¬ condition) :
    (@Accesses.ite _ condition _ _ _ ifTrue ifFalse).Drops before ↔
      ifFalse.Drops before :=
  ⟨fun drops => drops.elim (fun drops => absurd drops.1 fails) And.right,
    fun drops => Or.inr ⟨fails, drops⟩⟩

end Dropping

/--
A prompt program keeps the shadow registers as the chip is exactly when it drops
no write, and one that drops a write returns an error.
-/
theorem Accesses.Prompt.coherent_iff
    {Value : Type}
    {program : Checked Priv Value}
    {accesses : Accesses program}
    (prompt : accesses.Prompt)
    {before after : Priv}
    {answer : Except Int32 Value}
    (coherent : before.Coherent)
    (yields : Yields program.run before answer after) :
    (after.Coherent ↔ ¬ accesses.Drops before) ∧
      (accesses.Drops before → ∃ code, answer = .error code) := by
  induction accesses generalizing before after with
  | pure given =>
      rcases yields_run_pure.mp yields with ⟨_, rfl⟩
      exact ⟨⟨fun _ drops => drops.elim, fun _ => coherent⟩,
        fun drops => drops.elim⟩
  | throw code =>
      rcases yields_run_throw.mp yields with ⟨_, rfl⟩
      exact ⟨⟨fun _ drops => drops.elim, fun _ => coherent⟩,
        fun drops => drops.elim⟩
  | fault abort =>
      exact absurd yields not_yields_run_fault
  | get =>
      rcases yields_run_get.mp yields with ⟨_, rfl⟩
      exact ⟨⟨fun _ drops => drops.elim, fun _ => coherent⟩,
        fun drops => drops.elim⟩
  | note change spares =>
      rcases yields_run_modify.mp yields with ⟨_, rfl⟩
      refine ⟨⟨fun _ drops => drops.elim, fun _ reg shadowed => ?_⟩,
        fun drops => drops.elim⟩
      rw [(spares before).1, (spares before).2]
      exact coherent reg shadowed
  | shadowStore reg val =>
      exact prompt.elim
  | writeRegMask reg val bitMask =>
      rcases writeRegMask_coherent coherent yields with ⟨stays, fails, _⟩
      exact ⟨stays, fails⟩
  | write reg val =>
      exact write_coherent_iff prompt coherent yields
  | read reg =>
      exact ⟨⟨fun _ drops => drops.elim, fun _ => read_coherent coherent yields⟩,
        fun drops => drops.elim⟩
  | bind first second firstHypothesis secondHypothesis =>
      rcases yields_run_bind.mp yields with
        ⟨code, failed, isCode⟩ | ⟨value, middle, ran, later⟩
      · rw [Accesses.drops_bind_error failed]
        exact ⟨(firstHypothesis prompt.1 coherent failed).1,
          fun _ => ⟨code, isCode.symm⟩⟩
      · rcases firstHypothesis prompt.1 coherent ran with ⟨stays, fails⟩
        have firstHits : ¬ first.Drops before := by
          intro drops
          rcases fails drops with ⟨_, absurdity⟩
          cases absurdity
        rw [Accesses.drops_bind_ok ran, or_iff_right firstHits]
        exact secondHypothesis value (prompt.2 value) (stays.mpr firstHits) later
  | outcome accesses inductionHypothesis =>
      exact prompt.elim
  | ite ifTrue ifFalse trueHypothesis falseHypothesis =>
      split at yields
      · rename_i holds
        rw [Accesses.drops_ite_true holds]
        exact trueHypothesis prompt.1 coherent yields
      · rename_i fails
        rw [Accesses.drops_ite_false fails]
        exact falseHypothesis prompt.2 coherent yields

/-- The masked writes of a prompt program change the bits of their masks only. -/
theorem Accesses.Prompt.masks
    {Value : Type}
    {program : Checked Priv Value}
    {accesses : Accesses program}
    (prompt : accesses.Prompt)
    {before start finish : Priv}
    {made : MaskedWrite Nat 8}
    (coherent : before.Coherent)
    (performs : accesses.Performs before made start finish) :
    OnlyMasked made start finish := by
  induction accesses generalizing before with
  | writeRegMask reg val bitMask =>
      rcases performs with ⟨rfl, rfl, _, yields⟩
      exact (writeRegMask_coherent coherent yields).2.2
  | bind first second firstHypothesis secondHypothesis =>
      rcases performs with early | ⟨value, middle, ran, late⟩
      · exact firstHypothesis prompt.1 coherent early
      · rcases prompt.1.coherent_iff coherent ran with ⟨stays, fails⟩
        apply secondHypothesis value (prompt.2 value) _ late
        apply stays.mpr
        intro drops
        rcases fails drops with ⟨_, absurdity⟩
        cases absurdity
  | outcome accesses inductionHypothesis =>
      exact prompt.elim
  | ite ifTrue ifFalse trueHypothesis falseHypothesis =>
      rcases performs with ⟨_, performs⟩ | ⟨_, performs⟩
      · exact trueHypothesis prompt.1 coherent performs
      · exact falseHypothesis prompt.2 coherent performs
  | _ =>
      exact performs.elim

/-! ## Runs -/

/-- The functions that tune a tuner that is initialised. -/
inductive Adjustment where
  | setFreq (freq : UInt32)
  | setGain (setManualGain : Bool) (gain : Int)
  | setBandwidth (bw : Int)

namespace Adjustment

/-- The call that an adjustment stands for. -/
def call : Adjustment → Call
  | .setFreq freq => .setFreq freq
  | .setGain setManualGain gain => .setGain setManualGain gain
  | .setBandwidth bw => .setBandwidth bw

theorem accesses_prompt
    (adjustment : Adjustment) :
    adjustment.call.accesses.Prompt := by
  cases adjustment with
  | setFreq freq =>
      exact Accesses.setFreq_prompt freq
  | setGain setManualGain gain =>
      exact Accesses.setGain_prompt setManualGain gain
  | setBandwidth bw =>
      exact Accesses.setBandwidth_prompt bw

end Adjustment

/-- One adjustment; it has no result when the processor traps in it. -/
def Priv.adjust (priv : Priv) (adjustment : Adjustment) : Option Priv :=
  priv.call adjustment.call

/-- The transfers succeed from now on. -/
def Priv.repaired (priv : Priv) : Priv :=
  priv.answering (fun _ => .done) fun _ => (.done, fun _ => 0)

/--
The shadow registers describe the chip: they hold what it holds, and a masked
write that succeeds changes the bits of its mask only.
-/
structure Priv.Described (priv : Priv) : Prop where
  coherent : priv.Coherent
  masks :
    ∀ (made : MaskedWrite Nat 8) after,
      Yields (writeRegMask made.reg made.val made.mask).run priv.repaired
          (.ok ()) after →
        OnlyMasked made priv after

/-- A register on which masked writes change the bits of their masks is described. -/
theorem Priv.coherent_of_masks
    {priv : Priv}
    (masks :
      ∀ (made : MaskedWrite Nat 8) after,
        Yields (writeRegMask made.reg made.val made.mask).run priv.repaired
            (.ok ()) after →
          OnlyMasked made priv after) :
    priv.Coherent := by
  intro reg shadowed
  have done : priv.repaired.AllDone :=
    ⟨fun _ => rfl, fun _ => rfl⟩
  -- A masked write of no bits brings the shadow register to the chip.
  have unmasked : merge (priv.regs reg) 0 0 = priv.regs reg := by
    apply BitVec.eq_of_getLsbD_eq
    intro bit _
    rw [getLsbD_merge]
    simp
  have yields :
      Yields (writeRegMask reg 0 0).run priv.repaired (.ok ())
        (priv.repaired.written reg [priv.regs reg]) := by
    unfold writeRegMask
    rw [yields_run_bind_ok (yields_run_get.mpr ⟨rfl, rfl⟩), if_pos shadowed]
    change Yields (write reg [merge (priv.regs reg) 0 0]).run _ _ _
    rw [unmasked]
    exact (yields_write done).mpr ⟨rfl, rfl⟩
  have only := masks ⟨reg, 0, 0⟩ _ yields
  apply BitVec.eq_of_getLsbD_eq
  intro bit _
  by_contra differs
  have isWritten :
      (priv.repaired.written reg [priv.regs reg]).bus.chip reg = priv.regs reg :=
    overlay_of_some (by rw [patch_singleton, if_pos rfl])
  have changed := only reg bit (by
    rw [isWritten]
    exact fun same => differs same.symm)
  simp at changed

/-- The two parts of a description say the same. -/
theorem Priv.coherent_iff_masks
    {priv : Priv} :
    priv.Coherent ↔
      ∀ (made : MaskedWrite Nat 8) after,
        Yields (writeRegMask made.reg made.val made.mask).run priv.repaired
            (.ok ()) after →
          OnlyMasked made priv after := by
  constructor
  · intro coherent made after yields
    have stillCoherent : priv.repaired.Coherent :=
      coherent
    exact (writeRegMask_coherent stillCoherent yields).2.2
  · exact Priv.coherent_of_masks

/-- Each of them is thus enough. -/
theorem Priv.described_iff
    {priv : Priv} :
    priv.Described ↔ priv.Coherent :=
  ⟨Described.coherent,
    fun coherent => ⟨coherent, Priv.coherent_iff_masks.mp coherent⟩⟩

/--
After an initialisation in which every transfer succeeds, and with any pattern of
failures from then on: the shadow registers describe the chip after every call,
and each masked write on the way changes the bits of its mask only, exactly when
no register write fails whose bytes the chip does not hold already.
-/
theorem Priv.described_iff_no_drops
    {powered started : Priv}
    (done : powered.AllDone)
    (initialised : Yields init.run powered (.ok ()) started)
    (writeAnswers : Nat → Transfer)
    (readAnswers : Nat → Transfer × (Nat → Byte))
    (adjustments : List Adjustment) :
    (EveryState Priv.adjust Priv.Described
          (started.answering writeAnswers readAnswers) adjustments ∧
        ∀ earlier adjustment later priv made start finish,
          adjustments = earlier ++ adjustment :: later →
            run Priv.adjust (started.answering writeAnswers readAnswers)
                earlier = some priv →
            adjustment.call.accesses.Performs priv made start finish →
            OnlyMasked made start finish) ↔
      EveryStep Priv.adjust
        (fun priv adjustment => ¬ adjustment.call.accesses.Drops priv)
        (started.answering writeAnswers readAnswers) adjustments := by
  have initially : (started.answering writeAnswers readAnswers).Coherent :=
    (Accesses.init_sound.ends done initialised).coherent
  have everyState :
      EveryState Priv.adjust Priv.Coherent
          (started.answering writeAnswers readAnswers) adjustments ↔
        EveryStep Priv.adjust
          (fun priv adjustment => ¬ adjustment.call.accesses.Drops priv)
          (started.answering writeAnswers readAnswers) adjustments := by
    apply everyState_iff_everyStep (fun _ _ => True.intro) _ True.intro initially
    intro priv adjustment next _ coherent taken
    rcases Priv.call_eq_some.mp taken with ⟨_, yields⟩
    exact (adjustment.accesses_prompt.coherent_iff coherent yields).1
  constructor
  · rintro ⟨described, _⟩
    exact everyState.mp fun earlier later priv split reached =>
      (described earlier later priv split reached).coherent
  · intro noDrops
    have coherent := everyState.mpr noDrops
    refine ⟨fun earlier later priv split reached =>
      Priv.described_iff.mpr (coherent earlier later priv split reached), ?_⟩
    intro earlier adjustment later priv made start finish split reached performs
    exact adjustment.accesses_prompt.masks
      (coherent earlier (adjustment :: later) priv split reached) performs

/-- A gain is set, and the first write of it fails. -/
theorem Priv.described_iff_no_drops_lockingTuner :
    ∃ started,
      Yields init.run lockingTuner (.ok ()) started ∧
        ((EveryState Priv.adjust Priv.Described
              (started.answering (fun _ => .failed (-9))
                started.bus.readAnswers)
              [.setGain true 200] ∧
            ∀ earlier adjustment later priv made start finish,
              [Adjustment.setGain true 200] = earlier ++ adjustment :: later →
                run Priv.adjust
                    (started.answering (fun _ => .failed (-9))
                      started.bus.readAnswers)
                    earlier = some priv →
                adjustment.call.accesses.Performs priv made start finish →
                OnlyMasked made start finish) ↔
          EveryStep Priv.adjust
            (fun priv adjustment => ¬ adjustment.call.accesses.Drops priv)
            (started.answering (fun _ => .failed (-9)) started.bus.readAnswers)
            [.setGain true 200]) := by
  have computed :
      ∃ answer started,
        Yields init.run lockingTuner answer started ∧
          answer.toOption = some () :=
    exists_yields (fun (answer : Except Int32 Unit) _ => answer.toOption)
      (by decide +kernel)
  rcases computed with ⟨answer, started, initialised, ok⟩
  cases answer with
  | error code =>
      cases ok
  | ok nothing =>
      exact ⟨started, initialised,
        Priv.described_iff_no_drops ⟨fun _ => rfl, fun _ => rfl⟩ initialised
          _ _ _⟩

/--
An initialisation, a gain of 20 dB whose write of the LNA gain fails, and the first
masked write of a return to automatic gain; it returns the states in between.
-/
def failedGain : Checked Priv (Priv × (Nat → Transfer) × Priv) := do
  init
  let started ← get
  let writeAnswers := fun place =>
    if place = started.bus.writes + 4 then .failed (-9) else .done
  modify (Priv.answering writeAnswers started.bus.readAnswers)
  let _ ← (setGain true 200).outcome
  let failed ← get
  writeRegMask 0x05 0x00 0x10
  return (started, writeAnswers, failed)

/-- The masked write of bit 4 of register 0x05 changes the LNA gain in its lower bits. -/
theorem Priv.failed_write_reaches_chip :
    ∃ started writeAnswers failed finish,
      Yields init.run lockingTuner (.ok ()) started ∧
        run Priv.adjust (started.answering writeAnswers started.bus.readAnswers)
            [.setGain true 200] = some failed ∧
        (Adjustment.setGain false 0).call.accesses.Performs failed
          ⟨0x05, 0x00, 0x10⟩ failed finish ∧
        Yields (writeRegMask 0x05 0x00 0x10).run failed (.ok ()) finish ∧
        failed.bus.chip 0x05 = 0x13 ∧
        finish.bus.chip 0x05 = 0x06 ∧
        ¬ OnlyMasked ⟨0x05, 0x00, 0x10⟩ failed finish := by
  have computed :
      ∃ answer finish,
        Yields failedGain.run lockingTuner answer finish ∧
          (answer.toOption.map fun states => states.2.2.bus.chip 0x05,
              finish.bus.chip 0x05) =
            (some 0x13, 0x06) :=
    exists_yields
      (fun (answer : Except Int32 (Priv × (Nat → Transfer) × Priv))
          (finish : Priv) =>
        (answer.toOption.map fun states => states.2.2.bus.chip 0x05,
          finish.bus.chip 0x05))
      (by decide +kernel)
  rcases computed with ⟨answer, finish, yields, seen⟩
  rcases Prod.mk.inj seen with ⟨held, holds⟩
  cases answer with
  | error code =>
      cases held
  | ok states =>
      unfold failedGain at yields
      rcases parts_of_yields_ok yields with ⟨_, started, initialises, yields⟩
      rw [yields_run_bind_ok (yields_run_get.mpr ⟨rfl, rfl⟩)] at yields
      dsimp only at yields
      rw [yields_run_bind_ok (yields_run_modify.mpr ⟨rfl, rfl⟩)] at yields
      rcases parts_of_yields_ok yields with ⟨_, failed, fails, yields⟩
      rcases yields_run_outcome.mp fails with ⟨outcome, gains, _⟩
      rw [yields_run_bind_ok (yields_run_get.mpr ⟨rfl, rfl⟩)] at yields
      rcases parts_of_yields_ok yields with ⟨_, _, writes, ended⟩
      rcases yields_run_pure.mp ended with ⟨isStates, rfl⟩
      cases isStates
      have heldBefore : failed.bus.chip 0x05 = 0x13 :=
        Option.some.inj held
      refine ⟨started, (fun place =>
          if place = started.bus.writes + 4 then .failed (-9) else .done),
        failed, _, initialises, ?_,
        Or.inr ⟨by decide, Or.inl ⟨rfl, rfl, _, writes⟩⟩, writes, heldBefore,
        holds, ?_⟩
      · exact run_cons_of_step (Priv.call_eq_some.mpr ⟨outcome, gains⟩) rfl
      · intro only
        have changed := only 0x05 0 (by
          rw [heldBefore, holds]
          decide)
        exact absurd changed.2 (by decide)

end LibRtlSdr.R82xx
