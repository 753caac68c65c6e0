import LibRtlSdr.R82xxFailures
import LibRtlSdr.R82xxSuccess

namespace LibRtlSdr.R82xx

open DriverProgram MaskedWrites OverlayWrites PartialRun

/-!
# The inputs of the Blog V4

`r82xx_set_freq` switches between three inputs of the Blog V4, and remembers in
`input` which band it has switched to, so that the next call in the same band
leaves the switches alone.  It remembers the band before it writes the switches,
and one of the three writes can fail.  HF is up-converted below 28.8 MHz, but is
selected at 28.8 MHz as well.
-/

/-! ## The switches -/

/-- The switches of the inputs: bit 3 of register 0x06, bits 6 and 5 of 0x05. -/
@[ext] structure InputBits where
  cable2In : Bool
  cable1In : Bool
  airIn : Bool
  deriving Repr, DecidableEq

/-- The switches on the chip. -/
def Priv.inputBits (priv : Priv) : InputBits where
  cable2In := (priv.bus.chip 0x06).getLsbD 3
  cable1In := (priv.bus.chip 0x05).getLsbD 6
  airIn := (priv.bus.chip 0x05).getLsbD 5

/-- The switches for `HF`, for `VHF`, and for `UHF`. -/
def bandBits (band : Byte) : InputBits :=
  if band = 1 then ⟨true, false, true⟩
  else if band = 2 then ⟨false, true, true⟩
  else ⟨false, false, false⟩

/-- The switches are those of the band, and HF goes with up-conversion. -/
structure Priv.Selected (priv : Priv) (freq : UInt32) : Prop where
  bits : priv.inputBits = bandBits (blogV4Band freq)
  upconverted :
    priv.inputBits.cable2In = true ↔
      upconvertFreq true freq = freq + 28800000

/-- The transfer after so many more is done. -/
def Priv.Answers (priv : Priv) (later : Nat) : Prop :=
  priv.bus.writeAnswers (priv.bus.writes + later) = .done

/--
One of the three writes that switch to a band fails, and what the chip has then
are not the switches of the band: those of before, or of the shadow register that
the second write has brought to the chip.
-/
inductive Priv.Spoils (priv : Priv) (band : Byte) : Prop where
  | cable2In
      (fails : ¬ priv.Answers 0)
      (differs : priv.inputBits ≠ bandBits band)
  | cable1In
      (cable2In : priv.Answers 0)
      (fails : ¬ priv.Answers 1)
      (differs :
        priv.inputBits.cable1In ≠ (bandBits band).cable1In ∨
          priv.inputBits.airIn ≠ (bandBits band).airIn)
  | airIn
      (cable2In : priv.Answers 0)
      (cable1In : priv.Answers 1)
      (fails : ¬ priv.Answers 2)
      (differs : (priv.regs 0x05).getLsbD 5 ≠ (bandBits band).airIn)

theorem blogV4Band_cases
    (freq : UInt32) :
    blogV4Band freq = 1 ∨ blogV4Band freq = 2 ∨ blogV4Band freq = 3 := by
  unfold blogV4Band
  split_ifs <;> simp

section Switch

variable {before after : Priv} {answer : Except Int32 Unit}

/-- The first of some masked writes is done, or fails behind its shadow register. -/
theorem writeMasks_cons_cases
    {first : MaskedWrite Nat 8}
    {rest : List (MaskedWrite Nat 8)}
    (shadowed : Shadowed first.reg)
    (yields :
      Yields (writeMasks (first :: rest)).run before answer after) :
    (before.Answers 0 ∧
        Yields (writeMasks rest).run
          (before.written first.reg
            [merge (before.regs first.reg) first.val first.mask])
          answer after) ∨
      (¬ before.Answers 0 ∧ (∃ code, answer = .error code) ∧
        after.bus.chip = before.bus.chip) := by
  have short :
      [merge (before.regs first.reg) first.val first.mask].length ≤ 7 :=
    (by decide : 1 ≤ 7)
  have start :
      ∀ {outcome : Except Int32 Unit} {middle : Priv},
        Yields (writeRegMask first.reg first.val first.mask).run before
            outcome middle →
          Yields
            (write first.reg
              [merge (before.regs first.reg) first.val first.mask]).run
            before outcome middle := by
    intro outcome middle wrote
    unfold writeRegMask at wrote
    rwa [yields_run_bind_ok (yields_run_get.mpr ⟨rfl, rfl⟩),
      if_pos shadowed] at wrote
  unfold writeMasks at yields
  rcases yields_run_bind.mp yields with
    ⟨code, failed, isCode⟩ | ⟨_, middle, wrote, later⟩
  · rcases write_outcome short (start failed) with
      ⟨absurdity, _⟩ | ⟨fails, _, missed⟩
    · cases absurdity
    · refine .inr ⟨fails, ⟨code, isCode.symm⟩, ?_⟩
      rw [missed]
      rfl
  · rcases write_outcome short (start wrote) with
      ⟨_, rfl, done⟩ | ⟨_, ⟨_, absurdity⟩, _⟩
    · exact .inl ⟨done (List.cons_ne_nil _ _), later⟩
    · cases absurdity

/-- One write more has been answered. -/
theorem answers_written
    (priv : Priv)
    (reg : Nat)
    (val : Byte)
    (later : Nat) :
    (priv.written reg [val]).Answers later ↔ priv.Answers (later + 1) := by
  unfold Priv.Answers Priv.written
  simp only [List.length_singleton]
  rw [Nat.add_assoc, Nat.add_comm 1 later]

/-- The first write done. -/
def Priv.cable2Written (priv : Priv) (band : Byte) : Priv :=
  priv.written 0x06
    [merge (priv.regs 0x06) (if band = 1 then 0x08 else 0x00) 0x08]

/-- The first two writes done. -/
def Priv.cable1Written (priv : Priv) (band : Byte) : Priv :=
  (priv.cable2Written band).written 0x05
    [merge ((priv.cable2Written band).regs 0x05)
      (if band = 2 then 0x40 else 0x00) 0x40]

/-- All three writes done. -/
def Priv.airWritten (priv : Priv) (band : Byte) : Priv :=
  (priv.cable1Written band).written 0x05
    [merge ((priv.cable1Written band).regs 0x05)
      (if band = 3 then 0x00 else 0x20) 0x20]

theorem cable2Written_inputBits
    (priv : Priv)
    (freq : UInt32) :
    (priv.cable2Written (blogV4Band freq)).inputBits =
      { priv.inputBits with
        cable2In := (bandBits (blogV4Band freq)).cable2In } := by
  unfold Priv.cable2Written Priv.inputBits
  simp only [chip_written, Function.update_self,
    Function.update_of_ne (show (5 : Nat) ≠ 6 by decide), getLsbD_merge]
  rcases blogV4Band_cases freq with band | band | band <;>
    rw [band] <;> rfl

theorem cable1Written_inputBits
    (priv : Priv)
    (freq : UInt32) :
    (priv.cable1Written (blogV4Band freq)).inputBits =
      { bandBits (blogV4Band freq) with
        airIn := (priv.regs 0x05).getLsbD 5 } := by
  have first := cable2Written_inputBits priv freq
  have cable2In := congrArg InputBits.cable2In first
  have regs :
      (priv.cable2Written (blogV4Band freq)).regs 0x05 = priv.regs 0x05 := by
    unfold Priv.cable2Written
    rw [regs_written _ (by decide), Function.update_of_ne (by decide)]
  unfold Priv.cable1Written Priv.inputBits
  unfold Priv.inputBits at cable2In
  simp only [chip_written, Function.update_self,
    Function.update_of_ne (show (6 : Nat) ≠ 5 by decide), getLsbD_merge, regs]
  simp only at cable2In
  rw [cable2In]
  rcases blogV4Band_cases freq with band | band | band <;>
    rw [band] <;> rfl

/-- A register that has just been written is on the chip as in its shadow register. -/
theorem written_regs_eq_chip
    (priv : Priv)
    {reg : Nat}
    (shadowed : Shadowed reg)
    (val : Byte) :
    (priv.written reg [val]).regs reg =
      (priv.written reg [val]).bus.chip reg := by
  rw [regs_written _ shadowed, chip_written, Function.update_self,
    Function.update_self]

theorem airWritten_inputBits
    (priv : Priv)
    (freq : UInt32) :
    (priv.airWritten (blogV4Band freq)).inputBits =
      bandBits (blogV4Band freq) := by
  have second := cable1Written_inputBits priv freq
  have cable2In := congrArg InputBits.cable2In second
  have cable1In := congrArg InputBits.cable1In second
  have shadow :
      (priv.cable1Written (blogV4Band freq)).regs 0x05 =
        (priv.cable1Written (blogV4Band freq)).bus.chip 0x05 :=
    written_regs_eq_chip _ (by decide) _
  unfold Priv.airWritten Priv.inputBits
  unfold Priv.inputBits at cable2In cable1In
  simp only [chip_written, Function.update_self,
    Function.update_of_ne (show (6 : Nat) ≠ 5 by decide), getLsbD_merge,
    shadow]
  simp only at cable2In cable1In
  rw [cable2In, cable1In]
  rcases blogV4Band_cases freq with band | band | band <;>
    rw [band] <;> rfl

/-- The three writes, up to the first that fails. -/
theorem blogV4Inputs_cases
    {band : Byte}
    (yields :
      Yields (writeMasks (blogV4Inputs band)).run before answer after) :
    (before.Answers 0 ∧ before.Answers 1 ∧ before.Answers 2 ∧
        answer = .ok () ∧ after = before.airWritten band) ∨
      ((∃ code, answer = .error code) ∧
        ((¬ before.Answers 0 ∧ after.bus.chip = before.bus.chip) ∨
          (before.Answers 0 ∧ ¬ before.Answers 1 ∧
            after.bus.chip = (before.cable2Written band).bus.chip) ∨
          (before.Answers 0 ∧ before.Answers 1 ∧ ¬ before.Answers 2 ∧
            after.bus.chip = (before.cable1Written band).bus.chip))) := by
  have six : Shadowed 6 := by decide
  have five : Shadowed 5 := by decide
  rcases writeMasks_cons_cases six yields with
    ⟨done, yields⟩ | ⟨fails, failed, chip⟩
  swap
  · exact .inr ⟨failed, .inl ⟨fails, chip⟩⟩
  rcases writeMasks_cons_cases five yields with
    ⟨doneToo, yields⟩ | ⟨fails, failed, chip⟩
  swap
  · rw [answers_written] at fails
    exact .inr ⟨failed, .inr (.inl ⟨done, fails, chip⟩)⟩
  rw [answers_written] at doneToo
  rcases writeMasks_cons_cases five yields with
    ⟨doneLast, yields⟩ | ⟨fails, failed, chip⟩
  swap
  · rw [answers_written, answers_written] at fails
    exact .inr ⟨failed, .inr (.inr ⟨done, doneToo, fails, chip⟩)⟩
  rw [answers_written, answers_written] at doneLast
  obtain ⟨ok, same⟩ := yields_run_pure.mp yields
  exact .inl ⟨done, doneToo, doneLast, ok.symm, same.symm⟩

theorem inputBits_of_chip
    {first second : Priv}
    (same : first.bus.chip = second.bus.chip) :
    first.inputBits = second.inputBits := by
  unfold Priv.inputBits
  rw [same]

/-- The switches behind the writes are those of the band, unless they are spoilt. -/
theorem blogV4Inputs_outcome
    (freq : UInt32)
    (yields :
      Yields (writeMasks (blogV4Inputs (blogV4Band freq))).run before answer
        after) :
    after.inputBits = bandBits (blogV4Band freq) ↔
      ¬ before.Spoils (blogV4Band freq) := by
  have first := cable2Written_inputBits before freq
  have second := cable1Written_inputBits before freq
  rcases blogV4Inputs_cases yields with
    ⟨done, doneToo, doneLast, _, rfl⟩ |
      ⟨_, ⟨fails, chip⟩ | ⟨done, fails, chip⟩ | ⟨done, doneToo, fails, chip⟩⟩
  · rw [airWritten_inputBits]
    refine ⟨fun _ spoils => ?_, fun _ => rfl⟩
    cases spoils with
    | cable2In fails _ =>
        exact fails done
    | cable1In _ fails _ =>
        exact fails doneToo
    | airIn _ _ fails _ =>
        exact fails doneLast
  · rw [inputBits_of_chip chip]
    constructor
    · intro same spoils
      cases spoils with
      | cable2In _ differs =>
          exact differs same
      | cable1In done _ _ =>
          exact fails done
      | airIn done _ _ _ =>
          exact fails done
    · intro unspoilt
      by_contra differs
      exact unspoilt (.cable2In fails differs)
  · rw [inputBits_of_chip chip, first]
    constructor
    · intro same spoils
      cases spoils with
      | cable2In failsFirst _ =>
          exact failsFirst done
      | cable1In _ _ differs =>
          rw [← same] at differs
          exact differs.elim (absurd rfl) (absurd rfl)
      | airIn _ doneToo _ _ =>
          exact fails doneToo
    · intro unspoilt
      by_contra differs
      apply unspoilt
      refine .cable1In done fails ?_
      by_contra agree
      obtain ⟨cable1In, airIn⟩ := not_or.mp agree
      exact differs
        (InputBits.ext rfl (not_not.mp cable1In) (not_not.mp airIn))
  · rw [inputBits_of_chip chip, second]
    constructor
    · intro same spoils
      cases spoils with
      | cable2In failsFirst _ =>
          exact failsFirst done
      | cable1In _ failsSecond _ =>
          exact failsSecond doneToo
      | airIn _ _ _ differs =>
          exact differs (congrArg InputBits.airIn same)
    · intro unspoilt
      by_contra differs
      apply unspoilt
      refine .airIn done doneToo fails fun same => ?_
      exact differs (InputBits.ext rfl rfl same)

/-- Whether the switches are spoilt is not a matter of the band that is remembered. -/
theorem Priv.Spoils.with_input
    {priv : Priv}
    {band input : Byte}
    (spoils : ({ priv with input := input } : Priv).Spoils band)
    (other : Byte) :
    ({ priv with input := other } : Priv).Spoils band := by
  cases spoils with
  | cable2In fails differs =>
      exact .cable2In fails differs
  | cable1In done fails differs =>
      exact .cable1In done fails differs
  | airIn done doneToo fails differs =>
      exact .airIn done doneToo fails differs

theorem spoils_input
    (priv : Priv)
    (input band : Byte) :
    ({ priv with input := input } : Priv).Spoils band ↔ priv.Spoils band := by
  constructor
  · intro spoils
    exact spoils.with_input priv.input
  · intro spoils
    exact @Priv.Spoils.with_input priv band priv.input spoils input

end Switch

/-! ## One call -/

/-- The switches and the remembered band are left alone. -/
structure Priv.Unswitched (before after : Priv) : Prop where
  input : after.input = before.input
  bits : after.inputBits = before.inputBits
  blogV4 : after.blogV4 = before.blogV4

theorem Priv.Unswitched.trans
    {first second third : Priv}
    (early : first.Unswitched second)
    (late : second.Unswitched third) :
    first.Unswitched third where
  input := late.input.trans early.input
  bits := late.bits.trans early.bits
  blogV4 := late.blogV4.trans early.blogV4

/-- A program that writes neither register 0x05 nor 0x06 leaves the switches alone. -/
theorem Within.unswitched
    {Value : Type}
    {footprint : List Nat}
    {program : Checked Priv Value}
    {before after : Priv}
    {answer : Except Int32 Value}
    (within : Within footprint program)
    (apart : 5 ∉ footprint ∧ 6 ∉ footprint)
    (yields : Yields program.run before answer after) :
    before.Unswitched after where
  input := by
    have same := congrArg Priv.input (within.keeps yields)
    exact same
  bits := by
    unfold Priv.inputBits
    rw [within.chip yields apart.1, within.chip yields apart.2]
  blogV4 := by
    have same := congrArg Priv.blogV4 (within.keeps yields)
    exact same

/-- The call has set the mixer, the PLL and the notch filter, and looks at the band next. -/
def ComesToSwitch (freq : UInt32) (before reached : Priv) : Prop :=
  let loFreq := upconvertFreq before.blogV4 freq + before.intFreq
  ∃ mixed tuned,
    Yields (setMux loFreq).run before (.ok ()) mixed ∧
      Yields (setPll loFreq).run mixed (.ok ()) tuned ∧
      tuned.hasLock = true ∧
      Yields (writeMasks [⟨0x17, blogV4OpenD freq, 0x08⟩]).run tuned (.ok ())
        reached

theorem ComesToSwitch.unique
    {freq : UInt32}
    {before first second : Priv}
    (comes : ComesToSwitch freq before first)
    (comesToo : ComesToSwitch freq before second) :
    first = second := by
  obtain ⟨mixed, tuned, mux, pll, _, notch⟩ := comes
  obtain ⟨mixedToo, tunedToo, muxToo, pllToo, _, notchToo⟩ := comesToo
  obtain ⟨_, rfl⟩ := mux.functional muxToo
  obtain ⟨_, rfl⟩ := pll.functional pllToo
  exact (notch.functional notchToo).2

/-- What a call does to a Blog V4. -/
inductive Retuned
    (freq : UInt32)
    (before : Priv)
    (answer : Except Int32 Unit)
    (after : Priv) : Prop where
  | early
      (unswitched : before.Unswitched after)
      (untuned : answer = .ok () → after.hasLock = false)
  | remembered
      (unswitched : before.Unswitched after)
      (input : before.input = blogV4Band freq)
  | switched
      (reached : Priv)
      (comes : ComesToSwitch freq before reached)
      (unswitched : before.Unswitched reached)
      (input : before.input ≠ blogV4Band freq)
      (writes :
        Yields (writeMasks (blogV4Inputs (blogV4Band freq))).run
          { reached with input := blogV4Band freq } answer after)

theorem setFreq_retuned
    {freq : UInt32}
    {before after : Priv}
    {answer : Except Int32 Unit}
    (isBlogV4 : before.blogV4 = true)
    (yields : Yields (setFreq freq).run before answer after) :
    Retuned freq before answer after := by
  unfold setFreq at yields
  rw [yields_run_bind_ok (yields_run_get.mpr ⟨rfl, rfl⟩)] at yields
  rcases yields_run_bind.mp yields with
    ⟨code, failed, isCode⟩ | ⟨_, mixed, mux, yields⟩
  · refine .early ((setMux_within _).unswitched (by decide) failed)
      fun ok => ?_
    cases isCode.trans ok
  have unmixed := (setMux_within _).unswitched (by decide) mux
  rcases yields_run_bind.mp yields with
    ⟨code, failed, isCode⟩ | ⟨_, tuned, pll, yields⟩
  · refine .early
      (unmixed.trans ((setPll_within _).unswitched (by decide) failed))
      fun ok => ?_
    cases isCode.trans ok
  have untuned :=
    unmixed.trans ((setPll_within _).unswitched (by decide) pll)
  rw [yields_run_bind_ok (yields_run_get.mpr ⟨rfl, rfl⟩)] at yields
  split at yields
  swap
  · rename_i unlocked
    obtain ⟨_, rfl⟩ := yields_run_pure.mp yields
    exact .early untuned fun _ => Bool.eq_false_iff.mpr unlocked
  rename_i locked
  have stillBlogV4 : tuned.blogV4 = true :=
    untuned.blogV4.trans isBlogV4
  have notchWithin :
      Within [0x17] (writeMasks [⟨0x17, blogV4OpenD freq, 0x08⟩]) :=
    writeMasks_within (by simp)
  unfold selectInput at yields
  rw [yields_run_bind_ok (yields_run_get.mpr ⟨rfl, rfl⟩),
    if_pos stillBlogV4] at yields
  rcases yields_run_bind.mp yields with
    ⟨code, failed, isCode⟩ | ⟨_, reached, notch, yields⟩
  · refine .early
      (untuned.trans (notchWithin.unswitched (by decide) failed))
      fun ok => ?_
    cases isCode.trans ok
  have unswitched :=
    untuned.trans (notchWithin.unswitched (by decide) notch)
  have sameInput :=
    (notchWithin.unswitched (by decide) notch).input
  rw [← sameInput] at yields
  split at yields
  · rename_i differs
    rw [yields_run_bind_ok (yields_run_modify.mpr ⟨rfl, rfl⟩)] at yields
    exact .switched reached ⟨mixed, tuned, mux, pll, locked, notch⟩
      unswitched (fun same => differs (unswitched.input.trans same).symm)
      yields
  · rename_i same
    obtain ⟨_, rfl⟩ := yields_run_pure.mp yields
    exact .remembered unswitched
      (unswitched.input.symm.trans (not_not.mp same).symm)

/-- Behind the writes of the switches the band is remembered, whether they are done or not. -/
theorem blogV4Inputs_input
    {band : Byte}
    {before after : Priv}
    {answer : Except Int32 Unit}
    (yields :
      Yields (writeMasks (blogV4Inputs band)).run before answer after) :
    after.input = before.input ∧ after.blogV4 = before.blogV4 := by
  have within : Within [0x05, 0x06] (writeMasks (blogV4Inputs band)) :=
    writeMasks_within (by simp [blogV4Inputs])
  have input := congrArg Priv.input (within.keeps yields)
  have blogV4 := congrArg Priv.blogV4 (within.keeps yields)
  exact ⟨input, blogV4⟩

/-! ## Runs -/

/-- One call of `r82xx_set_freq`; it has no result when the processor traps in it. -/
def Priv.tune (priv : Priv) (freq : UInt32) : Option Priv :=
  priv.call (.setFreq freq)

theorem Priv.tune_eq_some
    {priv next : Priv}
    {freq : UInt32} :
    priv.tune freq = some next ↔
      ∃ answer, Yields (setFreq freq).run priv answer next :=
  Priv.call_eq_some

/--
The last call that has switched the inputs has switched them to this band, and one
of its three writes has failed and left other switches on the chip.
-/
def Stale
    (started : Priv)
    (earlier : List UInt32)
    (band : Byte) : Prop :=
  ∃ first freq rest before after reached,
    earlier = first ++ freq :: rest ∧
      run Priv.tune started first = some before ∧
      before.tune freq = some after ∧
      blogV4Band freq = band ∧
      before.input ≠ band ∧
      ComesToSwitch freq before reached ∧
      reached.Spoils band ∧
      EveryState Priv.tune (fun priv => priv.input = band) after rest

section Runs

/-- A Blog V4 stays one. -/
theorem tune_blogV4
    {priv next : Priv}
    {freq : UInt32}
    (isBlogV4 : priv.blogV4 = true)
    (taken : priv.tune freq = some next) :
    next.blogV4 = true := by
  obtain ⟨answer, yields⟩ := Priv.tune_eq_some.mp taken
  cases setFreq_retuned isBlogV4 yields with
  | early unswitched _ =>
      exact unswitched.blogV4.trans isBlogV4
  | remembered unswitched _ =>
      exact unswitched.blogV4.trans isBlogV4
  | switched reached _ unswitched _ writes =>
      exact (blogV4Inputs_input writes).2.trans
        (unswitched.blogV4.trans isBlogV4)

theorem run_blogV4
    {priv final : Priv}
    {freqs : List UInt32}
    (isBlogV4 : priv.blogV4 = true)
    (reached : run Priv.tune priv freqs = some final) :
    final.blogV4 = true :=
  invariant (fun priv => priv.blogV4 = true)
    (fun isBlogV4 taken => tune_blogV4 isBlogV4 taken) isBlogV4 reached

/-- A call that does not change the remembered band leaves the switches alone. -/
theorem tune_bits
    {priv next : Priv}
    {freq : UInt32}
    (isBlogV4 : priv.blogV4 = true)
    (taken : priv.tune freq = some next)
    (sameInput : next.input = priv.input) :
    next.inputBits = priv.inputBits := by
  obtain ⟨answer, yields⟩ := Priv.tune_eq_some.mp taken
  cases setFreq_retuned isBlogV4 yields with
  | early unswitched _ =>
      exact unswitched.bits
  | remembered unswitched _ =>
      exact unswitched.bits
  | switched reached _ _ differs writes =>
      have input := (blogV4Inputs_input writes).1
      exact absurd (sameInput.symm.trans input) differs

/-- As long as a band is remembered the switches are left alone. -/
theorem run_bits
    {band : Byte}
    {priv final : Priv}
    {freqs : List UInt32}
    (isBlogV4 : priv.blogV4 = true)
    (kept : EveryState Priv.tune (fun priv => priv.input = band) priv freqs)
    (reached : run Priv.tune priv freqs = some final) :
    final.inputBits = priv.inputBits := by
  induction freqs using List.reverseRecOn generalizing final with
  | nil =>
      cases reached
      rfl
  | append_singleton earlier freq inductionHypothesis =>
      obtain ⟨middle, reachedMiddle, taken⟩ :=
        run_concat_eq_some.mp reached
      have middleBlogV4 := run_blogV4 isBlogV4 reachedMiddle
      have middleInput : middle.input = band :=
        kept earlier [freq] middle rfl reachedMiddle
      have finalInput : final.input = band :=
        kept (earlier ++ [freq]) [] final (by simp) reached
      rw [tune_bits middleBlogV4 taken (finalInput.trans middleInput.symm)]
      exact inductionHypothesis kept.of_append reachedMiddle

/--
The switches are those of the remembered band exactly when the call that has
switched to it has not spoilt them.
-/
theorem bits_since_switch
    {freq : UInt32}
    {before after reached final : Priv}
    {rest : List UInt32}
    (isBlogV4 : before.blogV4 = true)
    (taken : before.tune freq = some after)
    (differs : before.input ≠ blogV4Band freq)
    (comes : ComesToSwitch freq before reached)
    (kept :
      EveryState Priv.tune (fun priv => priv.input = blogV4Band freq) after
        rest)
    (reachedFinal : run Priv.tune after rest = some final) :
    final.inputBits = bandBits (blogV4Band freq) ↔
      ¬ reached.Spoils (blogV4Band freq) := by
  have afterInput : after.input = blogV4Band freq :=
    kept [] rest after rfl rfl
  rw [run_bits (tune_blogV4 isBlogV4 taken) kept reachedFinal]
  obtain ⟨answer, yields⟩ := Priv.tune_eq_some.mp taken
  cases setFreq_retuned isBlogV4 yields with
  | early unswitched _ =>
      exact absurd (unswitched.input.symm.trans afterInput) differs
  | remembered _ same =>
      exact absurd same differs
  | switched reachedToo comesToo _ _ writes =>
      rw [comes.unique comesToo, blogV4Inputs_outcome freq writes,
        spoils_input]

section Started

variable {started before : Priv} {earlier : List UInt32}

/-- In a run, the remembered band goes with its switches unless it is stale. -/
theorem bits_iff_not_stale
    (isBlogV4 : started.blogV4 = true)
    (noBand : started.input = 0)
    (reached : run Priv.tune started earlier = some before)
    {freq : UInt32}
    (remembered : before.input = blogV4Band freq) :
    before.inputBits = bandBits (blogV4Band freq) ↔
      ¬ Stale started earlier (blogV4Band freq) := by
  constructor
  · rintro same ⟨first, other, rest, switching, after, comesTo, rfl,
      reachedSwitching, taken, isBand, differs, comes, spoils, kept⟩
    obtain ⟨switchingToo, reachedToo, reachedBefore⟩ :=
      run_append_eq_some.mp reached
    rw [reachedSwitching, Option.some.injEq] at reachedToo
    subst reachedToo
    rw [run_cons, taken] at reachedBefore
    rw [← isBand] at same differs spoils kept
    have switchingBlogV4 := run_blogV4 isBlogV4 reachedSwitching
    exact
      (bits_since_switch switchingBlogV4 taken differs comes kept
        reachedBefore).mp same spoils
  · intro fresh
    rcases exists_last_change Priv.input reached with
      fromStart | ⟨first, other, rest, switching, after, split,
        reachedSwitching, taken, changes, reachedBefore, kept⟩
    · have none : started.input = before.input :=
        fromStart [] earlier started rfl rfl
      rw [noBand, remembered] at none
      rcases blogV4Band_cases freq with band | band | band <;>
        rw [band] at none <;> exact absurd none (by decide)
    have afterInput : after.input = before.input :=
      kept [] rest after rfl rfl
    have switchingBlogV4 := run_blogV4 isBlogV4 reachedSwitching
    obtain ⟨answer, yields⟩ := Priv.tune_eq_some.mp taken
    cases setFreq_retuned switchingBlogV4 yields with
    | early unswitched _ =>
        exact absurd unswitched.input.symm changes
    | remembered unswitched _ =>
        exact absurd unswitched.input.symm changes
    | switched comesTo comes _ differs writes =>
        have isBand : blogV4Band other = blogV4Band freq := by
          rw [← remembered, ← afterInput]
          exact (blogV4Inputs_input writes).1.symm
        rw [remembered, ← isBand] at kept
        rw [← isBand]
        apply
          (bits_since_switch switchingBlogV4 taken differs comes kept
            reachedBefore).mpr
        intro spoils
        rw [isBand] at spoils kept differs
        exact fresh ⟨first, other, rest, switching, after, comesTo, split,
          reachedSwitching, taken, isBand, differs, comes, spoils, kept⟩

/-- What is stale is remembered. -/
theorem Stale.remembered
    {band : Byte}
    (stale : Stale started earlier band)
    (reached : run Priv.tune started earlier = some before) :
    before.input = band := by
  obtain ⟨first, other, rest, switching, after, _, rfl, reachedSwitching,
    taken, _, _, _, _, kept⟩ := stale
  obtain ⟨switchingToo, reachedToo, reachedBefore⟩ :=
    run_append_eq_some.mp reached
  rw [reachedSwitching, Option.some.injEq] at reachedToo
  subst reachedToo
  rw [run_cons, taken] at reachedBefore
  exact kept rest [] before (by simp) reachedBefore

/-- The switches after a call that tunes. -/
theorem bits_after_tuning
    (isBlogV4 : started.blogV4 = true)
    (noBand : started.input = 0)
    (reached : run Priv.tune started earlier = some before)
    {freq : UInt32}
    {after : Priv}
    (tunes : Yields (setFreq freq).run before (.ok ()) after)
    (locked : after.hasLock = true) :
    after.inputBits = bandBits (blogV4Band freq) ↔
      ¬ Stale started earlier (blogV4Band freq) := by
  cases setFreq_retuned (run_blogV4 isBlogV4 reached) tunes with
  | early _ untuned =>
      rw [untuned rfl] at locked
      cases locked
  | remembered unswitched input =>
      rw [unswitched.bits]
      exact bits_iff_not_stale isBlogV4 noBand reached input
  | switched comesTo _ _ differs writes =>
      have selected : after.inputBits = bandBits (blogV4Band freq) := by
        rcases blogV4Inputs_cases writes with
          ⟨_, _, _, _, rfl⟩ | ⟨⟨_, absurdity⟩, _⟩
        · exact airWritten_inputBits _ freq
        · cases absurdity
      exact ⟨fun _ stale => differs (stale.remembered reached),
        fun _ => selected⟩

end Started

end Runs

/-! ## The band that is remembered -/

/-- Frequencies are up-converted below 28.8 MHz. -/
theorem upconvertFreq_eq_iff
    (freq : UInt32) :
    upconvertFreq true freq = freq + 28800000 ↔ freq < 28800000 := by
  unfold upconvertFreq
  by_cases below : freq < 28800000
  · simp [below]
  · have same : freq ≠ freq + 28800000 := by
      intro same
      have bound := freq.toNat_lt
      have moved := congrArg UInt32.toNat same
      rw [UInt32.toNat_add, show (28800000 : UInt32).toNat = 28800000 from rfl]
        at moved
      omega
    simp [below, same]

/-- HF is selected up to 28.8 MHz. -/
theorem cable2In_bandBits_iff
    (freq : UInt32) :
    (bandBits (blogV4Band freq)).cable2In = true ↔ freq ≤ 28800000 := by
  unfold blogV4Band
  split_ifs with hf vhf
  · exact iff_of_true rfl hf
  · exact iff_of_false (by decide) hf
  · exact iff_of_false (by decide) hf

/-- With the switches of the band, only the border can be selected wrongly. -/
theorem selected_iff_bits
    {priv : Priv}
    {freq : UInt32} :
    priv.Selected freq ↔
      freq ≠ 28800000 ∧ priv.inputBits = bandBits (blogV4Band freq) := by
  have border : freq ≤ 28800000 ↔ freq < 28800000 ∨ freq = 28800000 :=
    UInt32.le_iff_lt_or_eq
  have notBelow : ¬ (28800000 : UInt32) < 28800000 := by decide
  constructor
  · rintro ⟨bits, upconverted⟩
    rw [bits, cable2In_bandBits_iff, upconvertFreq_eq_iff] at upconverted
    refine ⟨?_, bits⟩
    rintro rfl
    exact notBelow (upconverted.mp (UInt32.le_refl _))
  · rintro ⟨notBorder, bits⟩
    refine ⟨bits, ?_⟩
    rw [bits, cable2In_bandBits_iff, upconvertFreq_eq_iff, border]
    exact ⟨fun upTo => upTo.resolve_right notBorder, Or.inl⟩

/-- The selection of the system frequency forgets the band. -/
theorem sysfreqSel_input
    {before after : Priv}
    (yields : Yields (sysfreqSel 0 .digitalTv .dvbt).run before (.ok ()) after) :
    after.input = 0 := by
  have kept :
      ∀ {writes : List (MaskedWrite Nat 8)} {first last : Priv}
        {answer : Except Int32 Unit},
        Yields (writeMasks writes).run first answer last →
          last.input = first.input := by
    intro writes first last answer wrote
    have within : Within (writes.map MaskedWrite.reg) (writeMasks writes) :=
      writeMasks_within fun write member => List.mem_map_of_mem member
    have same := congrArg Priv.input (within.keeps wrote)
    exact same
  unfold sysfreqSel at yields
  obtain ⟨_, _, _, yields⟩ := parts_of_yields_ok yields
  obtain ⟨_, _, _, yields⟩ := parts_of_yields_ok yields
  obtain ⟨_, _, _, yields⟩ := parts_of_yields_ok yields
  rw [yields_run_bind_ok (yields_run_modify.mpr ⟨rfl, rfl⟩)] at yields
  obtain ⟨_, _, selected, agc⟩ := parts_of_yields_ok yields
  exact (kept agc).trans (kept selected)

/-- After the initialisation no band is remembered. -/
theorem init_input
    {powered started : Priv}
    (initialised : Yields init.run powered (.ok ()) started) :
    started.input = 0 ∧ started.blogV4 = powered.blogV4 := by
  have environment := init_environment.keeps initialised
  have blogV4 := congrArg Priv.blogV4 environment
  refine ⟨?_, blogV4⟩
  unfold init at initialised
  obtain ⟨_, _, _, yields⟩ := parts_of_yields_ok initialised
  obtain ⟨_, _, _, yields⟩ := parts_of_yields_ok yields
  obtain ⟨_, _, _, yields⟩ := parts_of_yields_ok yields
  obtain ⟨selected, middle, selects, yields⟩ := parts_of_yields_ok yields
  rw [yields_run_bind_ok (yields_run_modify.mpr ⟨rfl, rfl⟩)] at yields
  obtain ⟨outcome, ran, isOutcome⟩ := yields_run_outcome.mp selects
  cases isOutcome
  cases selected with
  | error code =>
      cases (yields_run_throw.mp yields).1
  | ok nothing =>
      obtain ⟨_, rfl⟩ := yields_run_pure.mp yields
      have input := sysfreqSel_input ran
      exact input

/--
In every run of a Blog V4, with any pattern of failures: after a call that tunes,
the switches are those of its band and HF goes with up-conversion, exactly when
the frequency is not 28.8 MHz and the band is not remembered from an interrupted
switch that has left other switches on the chip.
-/
theorem Priv.selected_iff
    {powered started : Priv}
    (isBlogV4 : powered.blogV4 = true)
    (initialised : Yields init.run powered (.ok ()) started)
    (freqs : List UInt32) :
    ∀ earlier freq later before after,
      freqs = earlier ++ freq :: later →
        run Priv.tune started earlier = some before →
        Yields (setFreq freq).run before (.ok ()) after →
        after.hasLock = true →
        (after.Selected freq ↔
          freq ≠ 28800000 ∧ ¬ Stale started earlier (blogV4Band freq)) := by
  intro earlier freq later before after _ reached tunes locked
  obtain ⟨noBand, same⟩ := init_input initialised
  rw [selected_iff_bits,
    bits_after_tuning (same.trans isBlogV4) noBand reached tunes locked]

/-- A Blog V4 whose PLL locks at once, and one of whose transfers fails. -/
def blogV4Tuner (failing : Nat) : Priv :=
  { lockingTuner with
    rafaelChip := .r828d
    blogV4 := true
    bus :=
      { lockingTuner.bus with
        writeAnswers := fun place =>
          if place = failing then .failed (-9) else .done } }

/-- A call at 100 MHz and one at 14 MHz. -/
theorem Priv.selected_iff_blogV4Tuner :
    ∃ started,
      Yields init.run (blogV4Tuner 89) (.ok ()) started ∧
        ∀ earlier freq later before after,
          [100000000, 14000000] = earlier ++ freq :: later →
            run Priv.tune started earlier = some before →
            Yields (setFreq freq).run before (.ok ()) after →
            after.hasLock = true →
            (after.Selected freq ↔
              freq ≠ 28800000 ∧
                ¬ Stale started earlier (blogV4Band freq)) := by
  have computed :
      ∃ answer started,
        Yields init.run (blogV4Tuner 89) answer started ∧
          answer.toOption = some () :=
    exists_yields (fun (answer : Except Int32 Unit) _ => answer.toOption)
      (by decide +kernel)
  obtain ⟨answer, started, initialised, ok⟩ := computed
  cases answer with
  | error code =>
      cases ok
  | ok nothing =>
      exact ⟨started, initialised,
        Priv.selected_iff rfl initialised [100000000, 14000000]⟩

/-- An initialisation and two calls at 100 MHz, of which the first may fail. -/
def tunedTwice : Checked Priv (Priv × Priv) := do
  init
  let started ← get
  let _ ← (setFreq 100000000).outcome
  let interrupted ← get
  setFreq 100000000
  return (started, interrupted)

/--
The second of the writes that switch to VHF fails.  The next call at 100 MHz finds
VHF remembered and returns without an error, with the switches of UHF.
-/
theorem Priv.not_selected_interrupted :
    ∃ started interrupted after,
      Yields init.run (blogV4Tuner 89) (.ok ()) started ∧
        run Priv.tune started [100000000] = some interrupted ∧
        Yields (setFreq 100000000).run interrupted (.ok ()) after ∧
        after.hasLock = true ∧
        after.inputBits = ⟨false, false, false⟩ ∧
        ¬ after.Selected 100000000 := by
  have computed :
      ∃ answer after,
        Yields tunedTwice.run (blogV4Tuner 89) answer after ∧
          (answer.toOption.isSome, after.hasLock, after.inputBits) =
            (true, true, ⟨false, false, false⟩) :=
    exists_yields
      (fun (answer : Except Int32 (Priv × Priv)) (after : Priv) =>
        (answer.toOption.isSome, after.hasLock, after.inputBits))
      (by decide +kernel)
  obtain ⟨answer, after, yields, seen⟩ := computed
  obtain ⟨ok, seen⟩ := Prod.mk.inj seen
  obtain ⟨locked, bits⟩ := Prod.mk.inj seen
  cases answer with
  | error code =>
      cases ok
  | ok states =>
      unfold tunedTwice at yields
      obtain ⟨_, started, initialises, yields⟩ := parts_of_yields_ok yields
      rw [yields_run_bind_ok (yields_run_get.mpr ⟨rfl, rfl⟩)] at yields
      obtain ⟨_, interrupted, tunes, yields⟩ := parts_of_yields_ok yields
      obtain ⟨outcome, ran, _⟩ := yields_run_outcome.mp tunes
      rw [yields_run_bind_ok (yields_run_get.mpr ⟨rfl, rfl⟩)] at yields
      obtain ⟨_, _, tunesAgain, ended⟩ := parts_of_yields_ok yields
      obtain ⟨_, rfl⟩ := yields_run_pure.mp ended
      refine ⟨started, interrupted, _, initialises, ?_, tunesAgain, locked,
        bits, fun selected => ?_⟩
      · exact run_cons_of_step (Priv.tune_eq_some.mpr ⟨outcome, ran⟩) rfl
      · have same := selected.bits
        rw [bits] at same
        exact absurd same (by decide)

end LibRtlSdr.R82xx
