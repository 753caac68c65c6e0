import LibRtlSdr.PartialRun
import LibRtlSdr.R82xxAccesses
import LibRtlSdr.R82xxFrames

namespace LibRtlSdr.R82xx

open DriverProgram MaskedWrites OverlayWrites PartialRun

/-!
# The shadow registers and the chip

Every masked write of the driver merges its bits into a shadow register and
sends the result to the chip.  It changes nothing else on the chip as long as
the shadow registers hold what the chip holds, which each access preserves; the
shadow registers that `r82xx_set_tv_standard` stores without a transfer are
those that `r82xx_init` has just written.
-/

/-- Every transfer succeeds, and the shadow registers hold what the chip holds. -/
structure Priv.Shadows (priv : Priv) : Prop where
  done : priv.AllDone
  coherent : priv.Coherent

/-- Between two states the chip has changed in the bits of a mask only. -/
def OnlyMasked (made : MaskedWrite Nat 8) (start finish : Priv) : Prop :=
  ∀ reg bit,
    (finish.bus.chip reg).getLsbD bit ≠ (start.bus.chip reg).getLsbD bit →
      reg = made.reg ∧ made.mask.getLsbD bit = true

section Operations

variable {before after : Priv}

/-- Nothing is written to a register outside of the bytes. -/
theorem patch_nil
    (reg : Nat) :
    patch reg [] = fun _ => none := by
  funext address
  simp [patch]

/-- A byte is written to its register. -/
theorem patch_singleton
    (reg address : Nat)
    (val : Byte) :
    patch reg [val] address = if address = reg then some val else none := by
  unfold patch
  by_cases same : address = reg
  · rw [if_pos same, if_pos (Nat.le_of_eq same.symm), same, Nat.sub_self]
    rfl
  · rw [if_neg same]
    by_cases later : reg ≤ address
    · rw [if_pos later]
      exact List.getElem?_eq_none (by rw [List.length_singleton]; omega)
    · rw [if_neg later]

/-- A shadow register is stored. -/
theorem shadowStore_regs
    {address reg : Nat}
    {val : List Byte}
    {byte : Byte}
    (shadowed : Shadowed address)
    (stored : patch reg val address = some byte) :
    (shadowStore reg val before).regs address = byte := by
  unfold shadowStore overlay
  dsimp only
  rw [if_pos shadowed, stored]
  rfl

/-- Bytes go to the shadow registers and to the chip. -/
theorem Priv.Coherent.written
    (coherent : before.Coherent)
    (reg : Nat)
    (val : List Byte) :
    (before.written reg val).Coherent := by
  intro address shadowed
  have same := coherent address shadowed
  unfold Priv.written shadowStore overlay
  dsimp only
  rw [if_pos shadowed, same]

theorem Priv.Shadows.written
    (shadows : before.Shadows)
    (reg : Nat)
    (val : List Byte) :
    (before.written reg val).Shadows :=
  ⟨shadows.done.written reg val, shadows.coherent.written reg val⟩

/-- The fields beside the registers do not matter. -/
theorem Priv.Shadows.of_registers
    (shadows : before.Shadows)
    (regs : after.regs = before.regs)
    (bus : after.bus = before.bus) :
    after.Shadows := by
  refine ⟨⟨?_, ?_⟩, ?_⟩
  · rw [bus]
    exact shadows.done.writes
  · rw [bus]
    exact shadows.done.reads
  · intro reg shadowed
    rw [bus, regs]
    exact shadows.coherent reg shadowed

theorem Priv.Shadows.write
    (shadows : before.Shadows)
    {reg : Nat}
    {val : List Byte}
    {answer : Except Int32 Unit}
    (yields : Yields (R82xx.write reg val).run before answer after) :
    after.Shadows := by
  rcases (yields_write shadows.done).mp yields with ⟨_, rfl⟩
  exact shadows.written reg val

theorem Priv.Shadows.read
    (shadows : before.Shadows)
    {reg : Nat}
    {answer : Except Int32 (Nat → Byte)}
    (yields : Yields (R82xx.read reg).run before answer after) :
    after.Shadows := by
  rcases (yields_read shadows.done).mp yields with ⟨_, rfl⟩
  refine ⟨⟨shadows.done.writes, shadows.done.reads⟩, ?_⟩
  intro address shadowed
  unfold Priv.received Priv.sent
  rw [patch_nil]
  exact shadows.coherent address shadowed

/-- A masked write merges into what the chip holds. -/
theorem yields_writeRegMask
    (shadows : before.Shadows)
    {reg : Nat}
    {val bitMask : Byte}
    {answer : Except Int32 Unit}
    (yields : Yields (writeRegMask reg val bitMask).run before answer after) :
    after.Shadows ∧
      (after = before ∨
        after = before.written reg [merge (before.bus.chip reg) val bitMask]) := by
  unfold writeRegMask at yields
  rw [yields_run_bind_ok (yields_run_get.mpr ⟨rfl, rfl⟩)] at yields
  split at yields
  · rename_i shadowed
    rw [← shadows.coherent reg shadowed] at yields
    exact ⟨shadows.write yields,
      .inr ((yields_write shadows.done).mp yields).2.symm⟩
  · rcases yields_run_throw.mp yields with ⟨_, rfl⟩
    exact ⟨shadows, .inl rfl⟩

/-- The bits outside of the mask stay on the chip. -/
theorem onlyMasked_of_merge
    (start : Priv)
    (reg : Nat)
    (val bitMask : Byte) :
    OnlyMasked ⟨reg, val, bitMask⟩ start
      (start.written reg [merge (start.bus.chip reg) val bitMask]) := by
  intro address bit changed
  unfold Priv.written overlay at changed
  dsimp only at changed
  rw [patch_singleton] at changed
  by_cases same : address = reg
  · refine ⟨same, ?_⟩
    rw [if_pos same, Option.getD_some, getLsbD_merge, same] at changed
    by_contra outside
    exact changed (if_neg outside)
  · rw [if_neg same] at changed
    exact absurd rfl changed

theorem writeRegMask_onlyMasked
    (shadows : before.Shadows)
    {reg : Nat}
    {val bitMask : Byte}
    {answer : Except Int32 Unit}
    (yields : Yields (writeRegMask reg val bitMask).run before answer after) :
    OnlyMasked ⟨reg, val, bitMask⟩ before after := by
  rcases (yields_writeRegMask shadows yields).2 with rfl | rfl
  · exact fun _ _ changed => absurd rfl changed
  · exact onlyMasked_of_merge before reg val bitMask

end Operations

/-! ## Programs of accesses -/

/--
From a state with `Pre` the program ends in one with `Post`, and its masked
writes change the bits of their masks only.
-/
structure Accesses.Sound
    {Value : Type}
    {program : Checked Priv Value}
    (accesses : Accesses program)
    (Pre Post : Priv → Prop) : Prop where
  ends :
    ∀ ⦃before answer after⦄,
      Pre before → Yields program.run before answer after → Post after
  masks :
    ∀ ⦃before made start finish⦄,
      Pre before →
        accesses.Performs before made start finish →
        OnlyMasked made start finish

namespace Accesses.Sound

variable {Value Result : Type} {Pre Middle Post : Priv → Prop}

theorem bind
    {program : Checked Priv Value}
    {next : Value → Checked Priv Result}
    {first : Accesses program}
    {second : ∀ value, Accesses (next value)}
    (firstSound : first.Sound Pre Middle)
    (escapes :
      ∀ ⦃before code after⦄,
        Pre before →
          Yields program.run before (.error code) after →
          Post after)
    (secondSound : ∀ value, (second value).Sound Middle Post) :
    (Accesses.bind first second).Sound Pre Post := by
  constructor
  · intro before answer after pre yields
    rcases yields_run_bind.mp yields with
      ⟨_, ran, _⟩ | ⟨value, middle, ran, later⟩
    · exact escapes pre ran
    · exact (secondSound value).ends (firstSound.ends pre ran) later
  · intro before made start finish pre performs
    rcases performs with early | ⟨value, middle, ran, late⟩
    · exact firstSound.masks pre early
    · exact (secondSound value).masks (firstSound.ends pre ran) late

theorem outcome
    {program : Checked Priv Value}
    {accesses : Accesses program}
    (sound : accesses.Sound Pre Post) :
    (Accesses.outcome accesses).Sound Pre Post := by
  constructor
  · intro before answer after pre yields
    rcases yields_run_outcome.mp yields with ⟨_, ran, _⟩
    exact sound.ends pre ran
  · intro before made start finish pre performs
    exact sound.masks pre performs

end Accesses.Sound

/-- Every access but a mere store keeps the shadow registers as the chip is. -/
theorem Accesses.Steady.sound
    {Value : Type}
    {program : Checked Priv Value}
    {accesses : Accesses program}
    (steady : accesses.Steady) :
    accesses.Sound Priv.Shadows Priv.Shadows := by
  induction accesses with
  | pure given =>
      refine ⟨fun before answer after shadows yields => ?_,
        fun _ _ _ _ _ performs => performs.elim⟩
      rw [← (yields_run_pure.mp yields).2]
      exact shadows
  | throw code =>
      refine ⟨fun before answer after shadows yields => ?_,
        fun _ _ _ _ _ performs => performs.elim⟩
      rw [← (yields_run_throw.mp yields).2]
      exact shadows
  | fault abort =>
      exact ⟨fun _ _ _ _ yields => absurd yields not_yields_run_fault,
        fun _ _ _ _ _ performs => performs.elim⟩
  | get =>
      refine ⟨fun before answer after shadows yields => ?_,
        fun _ _ _ _ _ performs => performs.elim⟩
      rw [← (yields_run_get.mp yields).2]
      exact shadows
  | note change spares =>
      refine ⟨fun before answer after shadows yields => ?_,
        fun _ _ _ _ _ performs => performs.elim⟩
      rw [← (yields_run_modify.mp yields).2]
      exact shadows.of_registers (spares before).1 (spares before).2
  | shadowStore reg val =>
      exact steady.elim
  | writeRegMask reg val bitMask =>
      constructor
      · intro before answer after shadows yields
        exact (yields_writeRegMask shadows yields).1
      · rintro before made start finish shadows ⟨rfl, rfl, answer, yields⟩
        exact writeRegMask_onlyMasked shadows yields
  | write reg val =>
      exact ⟨fun _ _ _ shadows yields => shadows.write yields,
        fun _ _ _ _ _ performs => performs.elim⟩
  | read reg =>
      exact ⟨fun _ _ _ shadows yields => shadows.read yields,
        fun _ _ _ _ _ performs => performs.elim⟩
  | bind first second firstHypothesis secondHypothesis =>
      have firstSound := firstHypothesis steady.1
      exact firstSound.bind
        (fun _ _ _ shadows ran => firstSound.ends shadows ran)
        (fun value => secondHypothesis value (steady.2 value))
  | outcome accesses inductionHypothesis =>
      exact (inductionHypothesis steady).outcome
  | ite ifTrue ifFalse trueHypothesis falseHypothesis =>
      constructor
      · intro before answer after shadows yields
        split at yields
        · exact (trueHypothesis steady.1).ends shadows yields
        · exact (falseHypothesis steady.2).ends shadows yields
      · intro before made start finish shadows performs
        rcases performs with ⟨_, performs⟩ | ⟨_, performs⟩
        · exact (trueHypothesis steady.1).masks shadows performs
        · exact (falseHypothesis steady.2).masks shadows performs

/-! ## The initialisation -/

/-- The registers are those of `r82xx_init_array`, in the shadow and on the chip. -/
structure Priv.Reset (priv : Priv) : Prop
    extends Priv.Shadows priv where
  array :
    ∀ reg, Shadowed reg → patch 0x05 initArray reg = some (priv.regs reg)

/-- The array has a value for each shadowed register. -/
theorem exists_patch_initArray
    {reg : Nat}
    (shadowed : Shadowed reg) :
    ∃ val, patch 0x05 initArray reg = some val := by
  have inside : reg - 5 < initArray.length := by
    have length : initArray.length = 30 :=
      rfl
    rcases shadowed with ⟨first, last⟩
    omega
  refine ⟨initArray[reg - 5], ?_⟩
  unfold patch
  rw [if_pos shadowed.1]
  exact List.getElem?_eq_getElem inside

namespace Accesses

theorem note_done
    (change : Priv → Priv)
    (spares :
      ∀ priv,
        (change priv).regs = priv.regs ∧ (change priv).bus = priv.bus) :
    (Accesses.note change spares).Sound Priv.AllDone Priv.AllDone := by
  refine ⟨fun before answer after done yields => ?_,
    fun _ _ _ _ _ performs => performs.elim⟩
  rw [← (yields_run_modify.mp yields).2]
  constructor
  · rw [(spares before).2]
    exact done.writes
  · rw [(spares before).2]
    exact done.reads

/-- Whatever the registers were, `r82xx_init` writes all of them. -/
theorem writeArray_sound :
    (Accesses.outcome (.write 0x05 initArray)).Sound
      Priv.AllDone Priv.Reset := by
  refine ⟨fun before answer after done yields => ?_,
    fun _ _ _ _ _ performs => performs.elim⟩
  rcases yields_run_outcome.mp yields with ⟨_, wrote, _⟩
  rcases (yields_write done).mp wrote with ⟨_, rfl⟩
  refine ⟨⟨done.written 0x05 initArray, fun reg shadowed => ?_⟩,
    fun reg shadowed => ?_⟩
  · rcases exists_patch_initArray shadowed with ⟨val, isVal⟩
    exact (overlay_of_some isVal).trans
      (shadowStore_regs shadowed isVal).symm
  · rcases exists_patch_initArray shadowed with ⟨val, isVal⟩
    rw [isVal]
    exact congrArg some (shadowStore_regs shadowed isVal).symm

/-- Storing the array once more changes nothing. -/
theorem storeArray_sound :
    (Accesses.shadowStore 0x05 initArray).Sound Priv.Reset Priv.Shadows := by
  refine ⟨fun before answer after reset yields => ?_,
    fun _ _ _ _ _ performs => performs.elim⟩
  rw [← (yields_run_modify.mp yields).2]
  refine ⟨⟨reset.done.writes, reset.done.reads⟩, fun reg shadowed => ?_⟩
  rw [shadowStore_regs shadowed (reset.array reg shadowed)]
  exact reset.coherent reg shadowed

/-- Neither a note nor a mere store fails. -/
theorem not_yields_modify_error
    {change : Priv → Priv}
    {code : Int32}
    {before after : Priv} :
    ¬ Yields (modify change : Checked Priv PUnit).run before (.error code)
      after := by
  intro yields
  cases (yields_run_modify.mp yields).1

theorem not_yields_outcome_error
    {Value : Type}
    {program : Checked Priv Value}
    {code : Int32}
    {before after : Priv} :
    ¬ Yields program.outcome.run before (.error code) after := by
  intro yields
  rcases yields_run_outcome.mp yields with ⟨_, _, absurdity⟩
  cases absurdity

theorem setTvStandard_sound
    (type : TunerUse) :
    (setTvStandard type).Sound Priv.Reset Priv.Shadows := by
  refine storeArray_sound.bind
    (fun _ _ _ _ yields => absurd yields not_yields_modify_error) fun _ => ?_
  apply Steady.sound
  exact ⟨writeMasks_steady _, fun _ => ⟨writeMasks_steady _, fun _ =>
    ⟨True.intro, fun _ => finishTvStandard_steady⟩⟩⟩

theorem init_sound : init.Sound Priv.AllDone Priv.Shadows := by
  refine Sound.bind (note_done _ _)
    (fun _ _ _ _ yields => absurd yields not_yields_modify_error) fun _ => ?_
  refine writeArray_sound.bind
    (fun _ _ _ _ yields => absurd yields not_yields_outcome_error)
    fun _ => ?_
  refine (setTvStandard_sound _).bind
    (fun _ _ _ reset yields => (setTvStandard_sound _).ends reset yields)
    fun _ => ?_
  apply Steady.sound
  refine ⟨sysfreqSel_steady _ _ _, fun selected =>
    ⟨True.intro, fun _ => ?_⟩⟩
  cases selected with
  | error code =>
      exact True.intro
  | ok nothing =>
      exact True.intro

end Accesses

/-! ## Runs -/

/-- The functions of the tuner that a driver calls. -/
inductive Call where
  | init
  | setFreq (freq : UInt32)
  | setGain (setManualGain : Bool) (gain : Int)
  | setBandwidth (bw : Int)
  | standby

namespace Call

/-- What a function returns beside its error. -/
def Value : Call → Type
  | .setBandwidth _ => UInt32
  | _ => Unit

/-- The function that a call stands for. -/
def program : (call : Call) → Checked Priv call.Value
  | .init => R82xx.init
  | .setFreq freq => R82xx.setFreq freq
  | .setGain setManualGain gain => R82xx.setGain setManualGain gain
  | .setBandwidth bw => R82xx.setBandwidth bw
  | .standby => R82xx.standby

/-- Its register accesses. -/
def accesses : (call : Call) → Accesses call.program
  | .init => Accesses.init
  | .setFreq freq => Accesses.setFreq freq
  | .setGain setManualGain gain => Accesses.setGain setManualGain gain
  | .setBandwidth bw => Accesses.setBandwidth bw
  | .standby => Accesses.standby

/-- Each call keeps the shadow registers as the chip is. -/
theorem accesses_sound
    (call : Call) :
    call.accesses.Sound Priv.Shadows Priv.Shadows := by
  cases call with
  | init =>
      exact ⟨fun _ _ _ shadows yields =>
          Accesses.init_sound.ends shadows.done yields,
        fun _ _ _ _ shadows performs =>
          Accesses.init_sound.masks shadows.done performs⟩
  | setFreq freq =>
      exact (Accesses.setFreq_steady freq).sound
  | setGain setManualGain gain =>
      exact (Accesses.setGain_steady setManualGain gain).sound
  | setBandwidth bw =>
      exact (Accesses.setBandwidth_steady bw).sound
  | standby =>
      exact Accesses.standby_steady.sound

end Call

/-- One call; it has no result when the processor traps in it. -/
def Priv.call (priv : Priv) (call : Call) : Option Priv :=
  (call.program.run.run priv).toOption.map Prod.snd

theorem Priv.call_eq_some
    {priv next : Priv}
    {call : Call} :
    priv.call call = some next ↔
      ∃ answer, Yields call.program.run priv answer next := by
  unfold Priv.call Yields
  cases call.program.run.run priv with
  | error abort =>
      simp [Except.toOption]
  | ok outcome =>
      rcases outcome with ⟨answer, after⟩
      simp [Except.toOption]

/-- After an initialisation every call finds the shadow registers as the chip is. -/
theorem Priv.Shadows.of_run
    {powered priv : Priv}
    (done : powered.AllDone)
    {calls : List Call}
    (reached : run Priv.call powered (.init :: calls) = some priv) :
    priv.Shadows := by
  rw [run_cons, Option.bind_eq_some_iff] at reached
  rcases reached with ⟨started, initialised, reached⟩
  rcases Priv.call_eq_some.mp initialised with ⟨_, yields⟩
  refine invariant Priv.Shadows ?_ (Accesses.init_sound.ends done yields) reached
  intro state call next shadows taken
  rcases Priv.call_eq_some.mp taken with ⟨_, yields⟩
  exact call.accesses_sound.ends shadows yields

/--
In every sequence of calls that begins with `r82xx_init` the shadow registers
hold after each call what the chip holds, and each masked write on the way
changes the bits of its mask only.
-/
theorem Priv.shadows_of_init
    {powered : Priv}
    (done : powered.AllDone)
    (calls : List Call) :
    (∀ earlier later priv,
      calls = earlier ++ later →
        run Priv.call powered (.init :: earlier) = some priv →
        priv.Coherent) ∧
      ∀ earlier call later priv made start finish,
        Call.init :: calls = earlier ++ call :: later →
          run Priv.call powered earlier = some priv →
          call.accesses.Performs priv made start finish →
          OnlyMasked made start finish := by
  constructor
  · intro earlier later priv _ reached
    exact (Priv.Shadows.of_run done reached).coherent
  · intro earlier call later priv made start finish split reached performs
    cases earlier with
    | nil =>
        rcases List.cons.inj split with ⟨rfl, _⟩
        cases reached
        exact Accesses.init_sound.masks done performs
    | cons first rest =>
        rcases List.cons.inj split with ⟨rfl, _⟩
        exact call.accesses_sound.masks
          (Priv.Shadows.of_run done reached) performs

/-- An R820T whose registers hold what power has left in them. -/
def poweredTuner : Priv where
  xtal := 28800000
  rafaelChip := .r820t
  regs _ := 0
  xtalCapSel := .lowCap30p
  intFreq := 0
  filCalCode := 0
  input := 0
  hasLock := false
  initDone := false
  blogV4 := false
  bus :=
    { chip := fun _ => 0xff
      writeAnswers := fun _ => .done
      writes := 0
      readAnswers := fun _ => (.done, fun _ => 0)
      reads := 0 }

/-- Its PLL does not lock, and it is put into standby. -/
theorem Priv.shadows_of_init_poweredTuner :
    (∀ earlier later priv,
      [Call.setFreq 100000000, .setGain true 200, .standby] =
          earlier ++ later →
        run Priv.call poweredTuner (.init :: earlier) = some priv →
        priv.Coherent) ∧
      ∀ earlier call later priv made start finish,
        [Call.init, .setFreq 100000000, .setGain true 200, .standby] =
            earlier ++ call :: later →
          run Priv.call poweredTuner earlier = some priv →
          call.accesses.Performs priv made start finish →
          OnlyMasked made start finish :=
  Priv.shadows_of_init ⟨fun _ => rfl, fun _ => rfl⟩
    [.setFreq 100000000, .setGain true 200, .standby]

end LibRtlSdr.R82xx
