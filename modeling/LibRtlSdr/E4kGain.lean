import LibRtlSdr.ByteChip

namespace LibRtlSdr.E4k

open DriverProgram ByteChip

/-!
# The gain of the E4000

`tuner_e4k.c` sets the gain of the LNA and that of the mixer in fields of two
registers.  The library splits the gain it is asked for between them.
-/

/-- `E4K_REG_GAIN1`. -/
def regGain1 : UInt8 := 0x14

/-- `E4K_REG_GAIN2`. -/
def regGain2 : UInt8 := 0x15

/-- `e4k_reg_write`. -/
def regWrite (reg val : UInt8) : Program Chip Int := do
  if ← writeByte reg val then
    return 0
  else
    return -1

/-- `e4k_reg_read`. -/
def regRead (reg : UInt8) : Program Chip Int := do
  match ← readByte reg with
  | some data => return data.toNat
  | none => return -1

/-- `e4k_reg_set_mask`; a register that cannot be read counts as one of all ones. -/
def regSetMask (reg mask val : UInt8) : Program Chip Int := do
  let tmp := UInt8.ofInt (← regRead reg)
  if tmp &&& mask = val then
    return 0
  else
    regWrite reg (tmp &&& ~~~mask ||| val &&& mask)

/-- `lnagain`, in pairs of a gain and its code. -/
def lnaGains : List (Int × UInt8) :=
  [(-50, 0), (-25, 1), (0, 4), (25, 5), (50, 6), (75, 7), (100, 8), (125, 9),
    (150, 10), (175, 11), (200, 12), (250, 13), (300, 14)]

/-- `e4k_set_lna_gain`; -22 is `-EINVAL`. -/
def setLnaGain (gain : Int) : Program Chip Int := do
  match lnaGains.find? (fun entry => entry.1 = gain) with
  | some entry =>
      let _ ← regSetMask regGain1 0x0f entry.2
      return gain
  | none => return -22

/-- The bit of `e4k_mixer_gain_set`. -/
def mixerBit (value : Int) : Option UInt8 :=
  if value = 4 then some 0
  else if value = 12 then some 1
  else none

/-- `e4k_mixer_gain_set`. -/
def mixerGainSet (value : Int) : Program Chip Int :=
  match mixerBit value with
  | some bit => regSetMask regGain2 0x01 bit
  | none => return -22

/-- `mixgain` of `e4000_set_gain`. -/
def mixerGainFor (gain : Int) : Int :=
  if 340 < gain then 12 else 4

/-- `e4000_set_gain`. -/
def setGain (gain : Int) : Program Chip Int32 := do
  let mixgain := mixerGainFor gain
  if (← setLnaGain (min 300 (gain - mixgain * 10))) = -22 then
    return -1
  else if (← mixerGainSet mixgain) = -22 then
    return -1
  else
    return 0

/-- `e4k_enable_manual_gain`. -/
def enableManualGain (manual : Bool) : Program Chip Int32 := do
  if manual then
    -- Set LNA mode to manual
    let _ ← regSetMask 0x1a 0x0f 0x00
    -- Set Mixer Gain Control to manual
    let _ ← regSetMask 0x20 0x01 0
    return 0
  else
    -- Set LNA mode to auto
    let _ ← regSetMask 0x1a 0x0f 0x09
    -- Set Mixer Gain Control to auto
    let _ ← regSetMask 0x20 0x01 1
    let _ ← regSetMask 0x24 0x07 0
    return 0

/-- The registers select an LNA and a mixer gain that add up to the gain. -/
def ProgramsGain (registers : UInt8 → UInt8) (gain : Int) : Prop :=
  ∃ lna mixer,
    (lna, registers regGain1 &&& 0x0f) ∈ lnaGains ∧
      mixerBit mixer = some (registers regGain2 &&& 0x01) ∧
        gain = lna + mixer * 10

section Answers

variable {registers : UInt8 → UInt8} {before : Chip}

theorem regWrite_returns
    (holds : before.Holds registers)
    (reg val : UInt8) :
    Returns (regWrite reg val) before 0
      (Chip.Holds (Function.update registers reg val)) := by
  apply (holds.writeByte reg val).bind
  intro middle holds
  exact Returns.pure holds

theorem regRead_returns
    (holds : before.Holds registers)
    (reg : UInt8) :
    Returns (regRead reg) before (registers reg).toNat
      (Chip.Holds registers) := by
  apply (holds.readByte reg).bind
  intro middle holds
  exact Returns.pure holds

/-- A byte that is shown as an `int` is the byte. -/
theorem ofInt_toNat
    (byte : UInt8) :
    UInt8.ofInt (byte.toNat : Int) = byte := by
  have small := byte.toNat_lt
  have same : (((byte.toNat : Int) % 2 ^ 8).toNat) = byte.toNat := by
    omega
  unfold UInt8.ofInt
  rw [same, UInt8.ofNat_toNat]

/-- The register with a value merged into it. -/
def merged (registers : UInt8 → UInt8) (reg mask val : UInt8) : UInt8 → UInt8 :=
  Function.update registers reg (registers reg &&& ~~~mask ||| val &&& mask)

theorem and_not_or_and
    (old mask : UInt8) :
    old &&& ~~~mask ||| old &&& mask = old := by
  rw [← UInt8.toBitVec_inj]
  simp only [UInt8.toBitVec_and, UInt8.toBitVec_or, UInt8.toBitVec_not]
  ext bit inside
  simp only [BitVec.getElem_or, BitVec.getElem_and, BitVec.getElem_not]
  cases old.toBitVec[bit] <;>
    cases mask.toBitVec[bit] <;>
    rfl

/-- The value is merged, be it by a write or because it is there. -/
theorem regSetMask_merged
    (holds : before.Holds registers)
    (reg mask val : UInt8) :
    Returns (regSetMask reg mask val) before 0
      (Chip.Holds (merged registers reg mask val)) := by
  apply (regRead_returns holds reg).bind
  intro middle holds
  rw [ofInt_toNat]
  dsimp only
  split
  · have same : merged registers reg mask val = registers := by
      have already : registers reg &&& mask = val :=
        ‹_›
      unfold merged
      rw [← already, UInt8.and_assoc, UInt8.and_self, and_not_or_and,
        Function.update_eq_self]
    rw [same]
    exact Returns.pure holds
  · exact regWrite_returns holds reg _

/-- A field of a register holds a value, and no other register has changed. -/
def Sets
    (registers : UInt8 → UInt8)
    (reg mask val : UInt8)
    (chip : Chip) : Prop :=
  ∃ later,
    chip.Holds later ∧
      later reg &&& mask = val ∧
        ∀ other, other ≠ reg → later other = registers other

/-- A value within its mask is set. -/
theorem regSetMask_returns
    (holds : before.Holds registers)
    {reg mask val : UInt8}
    (within : val &&& mask = val) :
    Returns (regSetMask reg mask val) before 0 (Sets registers reg mask val) := by
  apply (regSetMask_merged holds reg mask val).mono
  intro after holds
  refine ⟨_, holds, ?_, fun other differs => Function.update_of_ne differs _ _⟩
  unfold merged
  rw [Function.update_self, field_and_mask, within]

/-- A gain of the table is set. -/
theorem setLnaGain_returns
    (holds : before.Holds registers)
    {gain : Int}
    {entry : Int × UInt8}
    (found : lnaGains.find? (fun other => other.1 = gain) = some entry) :
    Returns (setLnaGain gain) before gain
      (Sets registers regGain1 0x0f entry.2) := by
  have within : entry.2 &&& 0x0f = entry.2 := by
    have small : ∀ entry ∈ lnaGains, entry.2 &&& 0x0f = entry.2 := by
      decide
    exact small entry (List.mem_of_find?_eq_some found)
  unfold setLnaGain
  rw [found]
  apply (regSetMask_returns holds within).bind
  intro middle sets
  exact Returns.pure sets

theorem mixerGainSet_returns
    (holds : before.Holds registers)
    {value : Int}
    {bit : UInt8}
    (known : mixerBit value = some bit) :
    Returns (mixerGainSet value) before 0
      (Sets registers regGain2 0x01 bit) := by
  have within : bit &&& 0x01 = bit := by
    unfold mixerBit at known
    split at known
    · cases known
      decide
    · split at known <;>
        cases known
      decide
  unfold mixerGainSet
  rw [known]
  exact regSetMask_returns holds within

/-- The library splits the gain between an LNA gain of the table and the mixer. -/
def Splits (gain : Int) : Prop :=
  (lnaGains.find? (fun entry =>
      entry.1 = min 300 (gain - mixerGainFor gain * 10))).isSome ∧
    gain = min 300 (gain - mixerGainFor gain * 10) + mixerGainFor gain * 10

instance (gain : Int) : Decidable (Splits gain) :=
  inferInstanceAs (Decidable (_ ∧ _))

/-- The mixer has the gain that the library chooses. -/
theorem mixerBit_mixerGainFor
    (gain : Int) :
    ∃ bit, mixerBit (mixerGainFor gain) = some bit := by
  unfold mixerGainFor
  split
  · exact ⟨1, rfl⟩
  · exact ⟨0, rfl⟩

/-- A gain that is split so is programmed. -/
theorem setGain_returns
    (holds : before.Holds registers)
    {gain : Int}
    (splits : Splits gain) :
    Returns (setGain gain) before 0 (fun after =>
      ∃ later, after.Holds later ∧ ProgramsGain later gain) := by
  rcases splits with ⟨isSome, sum⟩
  rcases Option.isSome_iff_exists.mp isSome with ⟨entry, found⟩
  rcases mixerBit_mixerGainFor gain with ⟨bit, known⟩
  have isGain :
      entry.1 = min 300 (gain - mixerGainFor gain * 10) := by
    have met := List.find?_some found
    exact of_decide_eq_true met
  have isEntry : entry ∈ lnaGains :=
    List.mem_of_find?_eq_some found
  have notRefused : ¬ min 300 (gain - mixerGainFor gain * 10) = -22 := by
    have none : ∀ entry ∈ lnaGains, ¬ entry.1 = -22 := by
      decide
    rw [← isGain]
    exact none entry isEntry
  unfold setGain
  apply (setLnaGain_returns holds found).bind
  rintro middle ⟨lnaSet, middleHolds, lnaCode, _⟩
  rw [if_neg notRefused]
  apply (mixerGainSet_returns middleHolds known).bind
  rintro last ⟨mixerSet, lastHolds, mixerCode, others⟩
  rw [if_neg (by decide)]
  apply Returns.pure
  refine ⟨mixerSet, lastHolds, entry.1, mixerGainFor gain, ?_, ?_, ?_⟩
  · rw [others regGain1 (by decide), lnaCode]
    exact isEntry
  · rw [mixerCode]
    exact known
  · rw [isGain]
    exact sum

/-- The gain mode can be chosen. -/
theorem enableManualGain_returns
    (holds : before.Holds registers) :
    Returns (enableManualGain true) before 0 (fun after =>
      ∃ later, after.Holds later) := by
  unfold enableManualGain
  rw [if_pos rfl]
  apply (regSetMask_returns holds (by decide)).bind
  rintro middle ⟨lnaSet, middleHolds, _⟩
  apply (regSetMask_returns middleHolds (by decide)).bind
  rintro last ⟨mixerSet, lastHolds, _⟩
  exact Returns.pure ⟨mixerSet, lastHolds⟩

end Answers

end LibRtlSdr.E4k
