import LibRtlSdr.E4kFilters
import LibRtlSdr.PartialRun

namespace LibRtlSdr.E4k

open DriverProgram ByteChip PartialRun

/-!
# Transfers of the E4000 that fail

The settings of the E4000 funnel through one read-modify-write.  The error of its
read is stored in a byte, as if the register were all ones; what follows sets the
other bits of the register, unless it fails as well.
-/

/-! ## The other settings -/

/-- `if_stage_gain` and `if_stage_gain_regs`, of the stages 0 to 6. -/
def ifStages : List (List Int × RegField) :=
  [([], ⟨0, 0, 0⟩),
    ([-3, 6], ⟨0x16, 0, 1⟩),
    ([0, 3, 6, 9], ⟨0x16, 1, 2⟩),
    ([0, 3, 6, 9], ⟨0x16, 3, 2⟩),
    ([0, 1, 2, 2], ⟨0x16, 5, 2⟩),
    ([3, 6, 9, 12, 15, 15, 15, 15], ⟨0x17, 0, 3⟩),
    ([3, 6, 9, 12, 15, 15, 15, 15], ⟨0x17, 3, 3⟩)]

/-- `find_stage_gain`, with the field of the stage. -/
def findStageGain (stage : UInt8) (val : Int) : Option (RegField × Nat) := do
  let (gains, field) ← ifStages[stage.toNat]?
  let index ← gains.findIdx? (· = val)
  return (field, index)

/-- `e4k_if_gain_set`. -/
def ifGainSet (stage : UInt8) (value : Int) : Program Chip Int :=
  match findStageGain stage value with
  | some (field, rc) =>
      regSetMask field.reg field.mask (UInt8.ofNat rc <<< field.shift)
  | none => return -22

/-- `e4k_commonmode_set`; 0x2f is `E4K_REG_DC7`. -/
def commonmodeSet (value : Int) : Program Chip Int :=
  if value < 0 then return -22
  else if 7 < value then return -22
  else regSetMask 0x2f 7 (UInt8.ofInt value)

/-! ## Calls and their updates -/

/-- One read-modify-write: `e4k_reg_set_mask`. -/
structure Update where
  reg : UInt8
  mask : UInt8
  val : UInt8
  deriving Repr, DecidableEq

namespace Update

/-- The read-modify-write. -/
def program (update : Update) : Program Chip Int :=
  regSetMask update.reg update.mask update.val

/-- The bits of a register that it names. -/
def bits (update : Update) (reg : UInt8) : UInt8 :=
  if reg = update.reg then update.mask else 0

/--
Its read fails, and then either all ones pass for the value, so that 0 is returned,
or they are written.
-/
def Misreads (update : Update) (chip : Chip) : Prop :=
  ∃ middle,
    Yields (regRead update.reg) chip (-1) middle ∧
      (update.mask = update.val ∨ middle.answers middle.transfers = true)

/-- If its read fails, then an error is returned and no register has changed. -/
def FailsCleanly (update : Update) (chip : Chip) : Prop :=
  ∀ middle answer after,
    Yields (regRead update.reg) chip (-1) middle →
    Yields update.program chip answer after →
      answer < 0 ∧ after.registers = chip.registers

end Update

/-- A call of a setting. -/
inductive Call where
  | setLnaGain (gain : Int)
  | mixerGainSet (value : Int)
  | ifGainSet (stage : UInt8) (value : Int)
  | enableManualGain (manual : Bool)
  | ifFilterBwSet (filter : IfFilter) (bandwidth : UInt32)
  | ifFilterChanEnable (on : Bool)
  | commonmodeSet (value : Int)
  deriving Repr, DecidableEq

/-- A condition on the updates of a list, each on the chip that it finds. -/
def EachUpdate (Meets : Update → Chip → Prop) : List Update → Chip → Prop
  | [], _ => True
  | update :: rest, chip =>
      Meets update chip ∧
        ∀ answer after,
          Yields update.program chip answer after → EachUpdate Meets rest after

/-- The bits of a register that updates name. -/
def updateBits (updates : List Update) (reg : UInt8) : UInt8 :=
  updates.foldr (fun update bits => update.bits reg ||| bits) 0

namespace Call

/-- The function that is called. -/
def program : Call → Program Chip Int
  | .setLnaGain gain => E4k.setLnaGain gain
  | .mixerGainSet value => E4k.mixerGainSet value
  | .ifGainSet stage value => E4k.ifGainSet stage value
  | .enableManualGain manual => Int32.toInt <$> E4k.enableManualGain manual
  | .ifFilterBwSet filter bandwidth => E4k.ifFilterBwSet filter bandwidth
  | .ifFilterChanEnable on => E4k.ifFilterChanEnable on
  | .commonmodeSet value => E4k.commonmodeSet value

/-- The read-modify-writes of a call. -/
def updates : Call → List Update
  | .setLnaGain gain =>
      ((lnaGains.find? (fun entry => entry.1 = gain)).map fun entry =>
        (⟨regGain1, 0x0f, entry.2⟩ : Update)).toList
  | .mixerGainSet value =>
      ((mixerBit value).map fun bit => (⟨regGain2, 0x01, bit⟩ : Update)).toList
  | .ifGainSet stage value =>
      ((findStageGain stage value).map fun found =>
        (⟨found.1.reg, found.1.mask, UInt8.ofNat found.2 <<< found.1.shift⟩ :
          Update)).toList
  | .enableManualGain true => [⟨0x1a, 0x0f, 0x00⟩, ⟨0x20, 0x01, 0⟩]
  | .enableManualGain false =>
      [⟨0x1a, 0x0f, 0x09⟩, ⟨0x20, 0x01, 1⟩, ⟨0x24, 0x07, 0⟩]
  | .ifFilterBwSet filter bandwidth =>
      [⟨(ifFilterField filter).reg, (ifFilterField filter).mask,
        UInt8.ofNat (closestArrIdx (ifFilterBw filter) bandwidth) <<<
          (ifFilterField filter).shift⟩]
  | .ifFilterChanEnable on => [⟨0x12, 0x20, if on then 0 else 0x20⟩]
  | .commonmodeSet value =>
      if value < 0 ∨ 7 < value then [] else [⟨0x2f, 7, UInt8.ofInt value⟩]

/-- The field of a filter is read before it is updated. -/
def readFirst : Call → Option UInt8
  | .ifFilterBwSet filter _ => some (ifFilterField filter).reg
  | _ => none

/-- The bits of a register that a call names. -/
def bits (call : Call) (reg : UInt8) : UInt8 :=
  updateBits call.updates reg

/-- A condition on the updates that a call comes to. -/
def Each (Meets : Update → Chip → Prop) (call : Call) (chip : Chip) : Prop :=
  match call.readFirst with
  | some reg =>
      ∀ shown after,
        Yields (regRead reg) chip shown after →
        0 ≤ shown →
        EachUpdate Meets call.updates after
  | none => EachUpdate Meets call.updates chip

/--
The call changes no bit that it does not name, and where a read of it fails, that is
an error and not a register value.
-/
def Respects (call : Call) (chip : Chip) : Prop :=
  (∀ answer after,
    Yields call.program chip answer after →
      ∀ reg,
        after.registers reg &&& ~~~call.bits reg =
          chip.registers reg &&& ~~~call.bits reg) ∧
    call.Each Update.FailsCleanly chip

/-- Take a call. -/
def step (chip : Chip) (call : Call) : Option Chip :=
  (call.program.run chip).toOption.map Prod.snd

theorem step_eq_some
    {chip next : Chip}
    {call : Call} :
    step chip call = some next ↔
      ∃ answer, Yields call.program chip answer next := by
  unfold step Yields
  cases call.program.run chip with
  | error abort =>
      simp [Except.toOption]
  | ok outcome =>
      rcases outcome with ⟨answer, after⟩
      simp [Except.toOption]

end Call

/-! ## One update -/

section Updating

variable {before : Chip}

theorem regWrite_succeeded
    (succeeded : before.answers before.transfers = true)
    (reg val : UInt8) :
    Yields (regWrite reg val) before 0 (before.passed.written reg val) :=
  (yields_bind_of (writeByte_succeeded succeeded reg val)).mpr
    (yields_pure.mpr ⟨rfl, rfl⟩)

theorem regWrite_failed
    (failed : before.answers before.transfers = false)
    (reg val : UInt8) :
    Yields (regWrite reg val) before (-1) before.passed :=
  (yields_bind_of (writeByte_failed failed reg val)).mpr
    (yields_pure.mpr ⟨rfl, rfl⟩)

/-- What a register read does: it shows the register of an honest chip, or fails. -/
theorem regRead_cases
    (honest : before.Honest)
    (reg : UInt8) :
    ∃ after,
      after.registers = before.registers ∧ after.Honest ∧
        (Yields (regRead reg) before (before.registers reg).toNat after ∨
          Yields (regRead reg) before (-1) after) := by
  rcases @readByte_cases before reg with shown | failed | failed
  · rw [honest] at shown
    exact ⟨before.passed.passed, rfl, honest, .inl
      ((yields_bind_of shown).mpr (yields_pure.mpr ⟨rfl, rfl⟩))⟩
  · exact ⟨before.passed, rfl, honest, .inr
      ((yields_bind_of failed).mpr (yields_pure.mpr ⟨rfl, rfl⟩))⟩
  · exact ⟨before.passed.passed, rfl, honest, .inr
      ((yields_bind_of failed).mpr (yields_pure.mpr ⟨rfl, rfl⟩))⟩

/-- Only the bits of a mask may have changed, and the chip is honest still. -/
structure Kept (bits : UInt8 → UInt8) (start chip : Chip) : Prop where
  honest : chip.Honest
  outside :
    ∀ reg, chip.registers reg &&& ~~~bits reg = start.registers reg &&& ~~~bits reg

theorem Kept.of_registers
    {start chip : Chip}
    (bits : UInt8 → UInt8)
    (honest : chip.Honest)
    (same : chip.registers = start.registers) :
    Kept bits start chip :=
  ⟨honest, fun _ => by rw [same]⟩

/-- After a read that succeeds, an update merges its value or changes nothing. -/
theorem regSetMask_of_shown
    {middle : Chip}
    {reg : UInt8}
    (shown : Yields (regRead reg) before (before.registers reg).toNat middle)
    (honest : middle.Honest)
    (same : middle.registers = before.registers)
    (mask val : UInt8) :
    Completes (regSetMask reg mask val) before
      (Kept (fun other => if other = reg then mask else 0) before) := by
  apply shown.completesBind
  rw [ofInt_toNat]
  dsimp only
  split
  · exact Completes.pure (Kept.of_registers _ honest same)
  · cases answered : middle.answers middle.transfers with
    | true =>
        refine ⟨_, _, regWrite_succeeded answered reg _, honest, fun other => ?_⟩
        rw [Chip.written_registers, Chip.passed_registers, same]
        exact merged_outside before.registers reg mask val other
    | false =>
        exact ⟨_, _, regWrite_failed answered reg _,
          Kept.of_registers _ honest same⟩

variable {update : Update}

/-- What follows a read that fails, unless all ones pass and nothing is written. -/
theorem regSetMask_of_failed
    {middle : Chip}
    (failed : Yields (regRead update.reg) before (-1) middle) :
    (update.mask = update.val ∧ Yields update.program before 0 middle) ∨
      (update.mask ≠ update.val ∧ middle.answers middle.transfers = true ∧
        ∃ val,
          Yields update.program before 0 (middle.passed.written update.reg val)) ∨
      (update.mask ≠ update.val ∧ middle.answers middle.transfers = false ∧
        Yields update.program before (-1) middle.passed) := by
  have ones : (0xff : UInt8) &&& update.mask = update.mask := by
    rw [UInt8.and_comm]
    exact UInt8.and_neg_one
  have allOnes : UInt8.ofInt (-1) = 0xff :=
    rfl
  unfold Update.program regSetMask
  simp only [yields_bind_of failed]
  rw [allOnes, ones]
  by_cases equal : update.mask = update.val
  · rw [if_pos equal]
    exact .inl ⟨equal, yields_pure.mpr ⟨rfl, rfl⟩⟩
  · rw [if_neg equal]
    right
    cases answered : middle.answers middle.transfers with
    | true =>
        exact .inl ⟨equal, rfl, _, regWrite_succeeded answered _ _⟩
    | false =>
        exact .inr ⟨equal, rfl, regWrite_failed answered _ _⟩

/-- The error of a read is returned cleanly exactly if it is not taken for a value. -/
theorem Update.failsCleanly_iff
    (honest : before.Honest) :
    update.FailsCleanly before ↔ ¬ update.Misreads before := by
  constructor
  · rintro clean ⟨middle, failed, misread⟩
    rcases regSetMask_of_failed failed with
      ⟨_, yields⟩ | ⟨_, _, val, yields⟩ | ⟨differs, notAnswered, _⟩
    · exact absurd (clean middle 0 _ failed yields).1 (by decide)
    · exact absurd (clean middle 0 _ failed yields).1 (by decide)
    · rcases misread with equal | answered
      · exact differs equal
      · rw [answered] at notAnswered
        cases notAnswered
  · intro sound middle answer after failed yields
    rcases regSetMask_of_failed failed with
      ⟨equal, _⟩ | ⟨_, answered, _⟩ | ⟨_, _, ended⟩
    · exact absurd ⟨middle, failed, .inl equal⟩ sound
    · exact absurd ⟨middle, failed, .inr answered⟩ sound
    · obtain ⟨rfl, rfl⟩ := ended.functional yields
      obtain ⟨shown, same, _, ran | ran⟩ := regRead_cases honest update.reg
      · have negative := (ran.functional failed).1
        omega
      · rw [(failed.functional ran).2]
        exact ⟨by decide, same⟩

/-- An update that does not misread keeps the bits outside of its mask. -/
theorem Update.kept
    (honest : before.Honest)
    (sound : ¬ update.Misreads before) :
    Completes update.program before (Kept update.bits before) := by
  obtain ⟨middle, same, honestStill, shown | failed⟩ :=
    regRead_cases honest update.reg
  · exact regSetMask_of_shown shown honestStill same update.mask update.val
  · rcases regSetMask_of_failed failed with
      ⟨equal, _⟩ | ⟨_, answered, _⟩ | ⟨_, _, ended⟩
    · exact absurd ⟨middle, failed, .inl equal⟩ sound
    · exact absurd ⟨middle, failed, .inr answered⟩ sound
    · exact ⟨-1, middle.passed, ended, Kept.of_registers _ honestStill same⟩

end Updating

/-! ## Updates in a row -/

/-- Updates in order, with their answers. -/
def runUpdates : List Update → Program Chip (List Int)
  | [] => return []
  | update :: rest => do
      let answer ← update.program
      let others ← runUpdates rest
      return answer :: others

section InARow

variable {before : Chip}

/-- Whatever fails, an update ends, and the chip is honest still. -/
theorem Update.honest
    (honest : before.Honest)
    (update : Update) :
    Completes update.program before Chip.Honest := by
  obtain ⟨middle, same, honestStill, shown | failed⟩ :=
    regRead_cases honest update.reg
  · obtain ⟨answer, after, yields, kept⟩ :=
      regSetMask_of_shown shown honestStill same update.mask update.val
    exact ⟨answer, after, yields, kept.honest⟩
  · rcases regSetMask_of_failed failed with
      ⟨_, yields⟩ | ⟨_, _, val, yields⟩ | ⟨_, _, yields⟩
    · exact ⟨0, middle, yields, honestStill⟩
    · exact ⟨0, _, yields, honestStill⟩
    · exact ⟨-1, middle.passed, yields, honestStill⟩

theorem runUpdates_honest
    (honest : before.Honest)
    (updates : List Update) :
    Completes (runUpdates updates) before Chip.Honest := by
  induction updates generalizing before with
  | nil =>
      exact Completes.pure honest
  | cons update rest inductionHypothesis =>
      apply (update.honest honest).bind
      intro answer middle honest
      apply (inductionHypothesis honest).bind
      intro others after honest
      exact Completes.pure honest

theorem Kept.trans
    {first second : UInt8 → UInt8}
    {middle after : Chip}
    (kept : Kept first before middle)
    (keptThen : Kept second middle after) :
    Kept (fun reg => first reg ||| second reg) before after :=
  ⟨keptThen.honest, fun reg =>
    and_not_or_trans (kept.outside reg) (keptThen.outside reg)⟩

/-- Updates that do not misread keep the bits that none of them names. -/
theorem runUpdates_kept
    (honest : before.Honest)
    {updates : List Update}
    (each : EachUpdate (fun update chip => ¬ update.Misreads chip) updates before) :
    Completes (runUpdates updates) before (Kept (updateBits updates) before) := by
  induction updates generalizing before with
  | nil =>
      exact Completes.pure (Kept.of_registers _ honest rfl)
  | cons update rest inductionHypothesis =>
      obtain ⟨sound, eachRest⟩ := each
      obtain ⟨answer, middle, yields, kept⟩ := Update.kept honest sound
      apply yields.completesBind
      apply (inductionHypothesis kept.honest (eachRest _ _ yields)).bind
      intro others after keptThen
      exact Completes.pure (kept.trans keptThen)

/-- On an honest chip, the two conditions on the updates of a list are the same. -/
theorem eachUpdate_iff
    (honest : before.Honest)
    (updates : List Update) :
    EachUpdate Update.FailsCleanly updates before ↔
      EachUpdate (fun update chip => ¬ update.Misreads chip) updates before := by
  induction updates generalizing before with
  | nil =>
      exact Iff.rfl
  | cons update rest inductionHypothesis =>
      have others :
          ∀ answer after,
            Yields update.program before answer after →
              (EachUpdate Update.FailsCleanly rest after ↔
                EachUpdate (fun update chip => ¬ update.Misreads chip) rest after) :=
        fun answer after yields =>
          inductionHypothesis ((update.honest honest).of_yields yields)
      unfold EachUpdate
      rw [Update.failsCleanly_iff honest]
      exact and_congr_right fun _ =>
        forall_congr' fun answer => forall_congr' fun after =>
          forall_congr' fun yields => others answer after yields

end InARow

/-! ## One call -/

namespace Call

variable {before : Chip} {call : Call}

/-- A call without a read of its own is its updates in order. -/
theorem program_eq
    (direct : call.readFirst = none) :
    ∃ finish : List Int → Int, call.program = finish <$> runUpdates call.updates := by
  cases call with
  | setLnaGain gain =>
      change ∃ finish, E4k.setLnaGain gain = finish <$> runUpdates
        ((lnaGains.find? (fun entry => entry.1 = gain)).map _).toList
      unfold E4k.setLnaGain
      cases lnaGains.find? (fun entry => entry.1 = gain) with
      | some entry =>
          exact ⟨fun _ => gain, by simp [runUpdates, Update.program]⟩
      | none =>
          exact ⟨fun _ => -22, by simp [runUpdates]⟩
  | mixerGainSet value =>
      change ∃ finish, E4k.mixerGainSet value = finish <$> runUpdates
        ((mixerBit value).map _).toList
      unfold E4k.mixerGainSet
      cases mixerBit value with
      | some bit =>
          exact ⟨fun answers => answers.headD 0, by simp [runUpdates, Update.program]⟩
      | none =>
          exact ⟨fun _ => -22, by simp [runUpdates]⟩
  | ifGainSet stage value =>
      change ∃ finish, E4k.ifGainSet stage value = finish <$> runUpdates
        ((findStageGain stage value).map _).toList
      unfold E4k.ifGainSet
      cases findStageGain stage value with
      | some found =>
          exact ⟨fun answers => answers.headD 0, by simp [runUpdates, Update.program]⟩
      | none =>
          exact ⟨fun _ => -22, by simp [runUpdates]⟩
  | enableManualGain manual =>
      refine ⟨fun _ => 0, ?_⟩
      cases manual <;>
        simp [program, updates, E4k.enableManualGain, runUpdates, Update.program]
  | ifFilterBwSet filter bandwidth =>
      cases direct
  | ifFilterChanEnable on =>
      refine ⟨fun answers => answers.headD 0, ?_⟩
      simp [program, updates, E4k.ifFilterChanEnable, runUpdates, Update.program]
  | commonmodeSet value =>
      change ∃ finish, E4k.commonmodeSet value = finish <$> runUpdates
        (if value < 0 ∨ 7 < value then [] else [_])
      unfold E4k.commonmodeSet
      by_cases refused : value < 0 ∨ 7 < value
      · refine ⟨fun _ => -22, ?_⟩
        rw [if_pos refused]
        rcases refused with negative | large
        · simp [runUpdates, negative]
        · simp [runUpdates, large]
      · obtain ⟨notNegative, notLarge⟩ := not_or.mp refused
        refine ⟨fun answers => answers.headD 0, ?_⟩
        rw [if_neg refused, if_neg notNegative, if_neg notLarge]
        simp [runUpdates, Update.program]

/-- On an honest chip, the two conditions on the updates of a call are the same. -/
theorem each_iff
    (honest : before.Honest) :
    call.Each Update.FailsCleanly before ↔
      call.Each (fun update chip => ¬ update.Misreads chip) before := by
  unfold Each
  cases call.readFirst with
  | none =>
      exact eachUpdate_iff honest call.updates
  | some reg =>
      refine forall_congr' fun shown => forall_congr' fun after =>
        forall_congr' fun read => forall_congr' fun _ => ?_
      apply eachUpdate_iff
      obtain ⟨middle, _, honestStill, ran | ran⟩ := regRead_cases honest reg
      · rw [← (ran.functional read).2]
        exact honestStill
      · rw [← (ran.functional read).2]
        exact honestStill

/-- Whatever fails, a call ends, and the chip is honest still. -/
theorem honest
    (honest : before.Honest)
    (call : Call) :
    Completes call.program before Chip.Honest := by
  cases direct : call.readFirst with
  | none =>
      obtain ⟨finish, isUpdates⟩ := program_eq direct
      obtain ⟨answers, after, yields, honestStill⟩ :=
        runUpdates_honest honest call.updates
      rw [isUpdates]
      exact ⟨finish answers, after, yields_map.mpr ⟨answers, yields, rfl⟩, honestStill⟩
  | some reg =>
      cases call with
      | ifFilterBwSet filter bandwidth =>
          obtain ⟨middle, same, honestStill, read | failed⟩ :=
            regRead_cases honest (ifFilterField filter).reg
          · apply read.completesBind
            rw [if_neg (by omega)]
            exact Update.honest honestStill
              ⟨(ifFilterField filter).reg, (ifFilterField filter).mask, _⟩
          · apply failed.completesBind
            exact Completes.pure honestStill
      | _ =>
          cases direct

/-- A call whose updates do not misread keeps the bits that it does not name. -/
theorem kept
    (honest : before.Honest)
    (each : call.Each (fun update chip => ¬ update.Misreads chip) before) :
    Completes call.program before (Kept call.bits before) := by
  cases direct : call.readFirst with
  | none =>
      unfold Each at each
      rw [direct] at each
      obtain ⟨finish, isUpdates⟩ := program_eq direct
      obtain ⟨answers, after, yields, kept⟩ := runUpdates_kept honest each
      rw [isUpdates]
      exact ⟨finish answers, after, yields_map.mpr ⟨answers, yields, rfl⟩, kept⟩
  | some reg =>
      cases call with
      | ifFilterBwSet filter bandwidth =>
          obtain ⟨middle, same, honestStill, read | failed⟩ :=
            regRead_cases honest (ifFilterField filter).reg
          · obtain ⟨sound, _⟩ := each _ _ read (by omega)
            obtain ⟨answer, after, yields, keptBits⟩ := Update.kept honestStill sound
            apply read.completesBind
            rw [if_neg (by omega)]
            refine ⟨answer, after, yields, keptBits.honest, fun other => ?_⟩
            have outside := keptBits.outside other
            rw [same] at outside
            change after.registers other &&& ~~~(_ ||| 0) = _ &&& ~~~(_ ||| 0)
            rw [UInt8.or_zero]
            exact outside
          · apply failed.completesBind
            exact Completes.pure (Kept.of_registers _ honestStill same)
      | _ =>
          cases direct

/-- A call respects the bits it does not name, and its errors, if it does not misread. -/
theorem respects_iff
    (honest : before.Honest) :
    call.Respects before ↔
      call.Each (fun update chip => ¬ update.Misreads chip) before := by
  unfold Respects
  rw [each_iff honest]
  constructor
  · exact And.right
  · intro each
    refine ⟨fun answer after yields => ?_, each⟩
    exact ((kept honest each).of_yields yields).outside

end Call

/-! ## Runs -/

section Runs

variable {chip : Chip}

/-- No update that a call comes to takes the error of a read for a register value. -/
def Call.ReadsSoundly (chip : Chip) (call : Call) : Prop :=
  call.Each (fun update chip => ¬ update.Misreads chip) chip

/-- Every state of a run is honest, as the first one is. -/
theorem run_honest
    (honest : chip.Honest)
    {calls : List Call}
    {final : Chip}
    (reached : run Call.step chip calls = some final) :
    final.Honest := by
  refine invariant Chip.Honest ?_ honest reached
  intro state call next honest taken
  obtain ⟨answer, yields⟩ := Call.step_eq_some.mp taken
  exact (call.honest honest).of_yields yields

/--
On an honest chip, whatever its transfers do, all calls end; and each call of a run
changes only bits that it names and returns the errors of its reads, exactly if no
read-modify-write of the run goes on after a read that failed, with a write that
succeeds or with a value for which all ones pass.
-/
theorem calls_respect_iff
    (honest : chip.Honest)
    (calls : List Call) :
    (∃ final, run Call.step chip calls = some final) ∧
      (EveryStep Call.step (fun chip call => call.Respects chip) chip calls ↔
        EveryStep Call.step Call.ReadsSoundly chip calls) := by
  constructor
  · induction calls generalizing chip with
    | nil =>
        exact ⟨chip, rfl⟩
    | cons call rest inductionHypothesis =>
        obtain ⟨answer, next, yields, honestNext⟩ := call.honest honest
        obtain ⟨final, reached⟩ := inductionHypothesis honestNext
        exact ⟨final,
          run_cons_of_step (Call.step_eq_some.mpr ⟨answer, yields⟩) reached⟩
  · constructor
    · intro respects earlier call later state next split reached taken
      exact (Call.respects_iff (run_honest honest reached)).mp
        (respects earlier call later state next split reached taken)
    · intro sound earlier call later state next split reached taken
      exact (Call.respects_iff (run_honest honest reached)).mpr
        (sound earlier call later state next split reached taken)

/-- A chip that misses one transfer, the first read. -/
def missedRead : Chip :=
  { Chip.cleared with answers := fun place => place ≠ 1 }

/-- On an answering chip a gain is set, and the mode, as they should be. -/
theorem calls_respect_iff_cleared :
    (∃ final,
      run Call.step Chip.cleared [.setLnaGain 0, .enableManualGain true] =
        some final) ∧
      (EveryStep Call.step (fun chip call => call.Respects chip) Chip.cleared
          [.setLnaGain 0, .enableManualGain true] ↔
        EveryStep Call.step Call.ReadsSoundly Chip.cleared
          [.setLnaGain 0, .enableManualGain true]) :=
  calls_respect_iff (fun _ _ _ => rfl) [.setLnaGain 0, .enableManualGain true]

/-- A mixer gain of 4 dB is set after a read that fails: seven other bits are set. -/
theorem calls_not_respect :
    missedRead.Honest ∧
      ¬ EveryStep Call.step (fun chip call => call.Respects chip) missedRead
        [.mixerGainSet 4] := by
  refine ⟨fun _ _ _ => rfl, fun respects => ?_⟩
  have yields :
      Yields (Call.mixerGainSet 4).program missedRead 0
        (missedRead.passed.passed.passed.written 0x15 0xfe) :=
    rfl
  have taken := Call.step_eq_some.mpr ⟨_, yields⟩
  have kept :=
    (respects [] (.mixerGainSet 4) [] missedRead _ rfl rfl taken).1 _ _ yields 0x15
  revert kept
  decide

end Runs

end LibRtlSdr.E4k
