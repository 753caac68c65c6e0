import LibRtlSdr.RtlSdrR82xx

namespace LibRtlSdr.RtlSdr

open DriverProgram OverlayWrites PartialRun R82xx

/-!
# The intermediate frequency register

The tuner moves a channel to its intermediate frequency, and the demodulator
moves it back by what its IF register says.  Both must agree while the tuner is
in use.  The register is written for the clock of the moment; two functions
change that clock without writing it again.
-/

/-- The IF register: 22 bits in three registers of page 1. -/
def Demod.ifRegister (demod : Demod) : Nat :=
  (demod.registers 1 0x19 &&& 0x3f).toNat * 65536 +
    (demod.registers 1 0x1a).toNat * 256 +
    (demod.registers 1 0x1b).toNat

/-- The encoding of an intermediate frequency for an RTL clock. -/
def ifEncoding (intFreq rtlClock : UInt32) : Nat :=
  ((-((intFreq.toNat * 2 ^ 22 / rtlClock.toNat : Nat) : Int)) % 2 ^ 22).toNat

/-- The clock and the mode of a device. -/
structure Basis where
  rtlXtal : UInt32
  corr : Int
  directSamplingMode : Int
  tunerType : TunerType

/-- A device as far as its IF register is concerned. -/
structure IfState where
  basis : Basis
  directSampling : Int
  freq : UInt32
  intFreq : UInt32
  ifRegister : Nat

namespace Device

/-- The IF register encodes the intermediate frequency of the tuner. -/
def IfTracked (device : Device Stick) : Prop :=
  device.hardware.demod.ifRegister =
    ifEncoding device.hardware.tuner.intFreq device.rtlClock

/-- It does so as long as the tuner is in use. -/
def Tracks (device : Device Stick) : Prop :=
  device.directSampling = 0 → device.IfTracked

/-- Every transfer succeeds. -/
structure Responsive (device : Device Stick) : Prop where
  demod : ∀ place, device.hardware.demod.answers place = true
  tuner : device.hardware.tuner.AllDone

/-- The scripts of the answers of a device. -/
def script (device : Device Stick) :
    (Nat → Bool) × (Nat → Transfer) × (Nat → Transfer × (Nat → Byte)) :=
  (device.hardware.demod.answers,
    device.hardware.tuner.bus.writeAnswers,
    device.hardware.tuner.bus.readAnswers)

/-- The fields that no tuning call changes, as far as the IF register depends on them. -/
def basis (device : Device Stick) : Basis where
  rtlXtal := device.rtlXtal
  corr := device.corr
  directSamplingMode := device.directSamplingMode
  tunerType := device.tunerType

/-- What the agreement of register and tuner depends on. -/
def ifState (device : Device Stick) : IfState where
  basis := device.basis
  directSampling := device.directSampling
  freq := device.freq
  intFreq := device.hardware.tuner.intFreq
  ifRegister := device.hardware.demod.ifRegister

/-- The scripts decide whether every transfer succeeds. -/
theorem Responsive.of_script
    {before after : Device Stick}
    (responsive : before.Responsive)
    (same : after.script = before.script) :
    after.Responsive := by
  rcases Prod.mk.inj same with ⟨sameDemod, sameTuner⟩
  rcases Prod.mk.inj sameTuner with ⟨sameWrites, sameReads⟩
  refine ⟨?_, ⟨?_, ?_⟩⟩
  · intro place
    rw [sameDemod]
    exact responsive.demod place
  · intro place
    rw [sameWrites]
    exact responsive.tuner.writes place
  · intro place
    rw [sameReads]
    exact responsive.tuner.reads place

theorem rtlClock_of_basis
    {before after : Device Stick}
    (same : after.basis = before.basis) :
    after.rtlClock = before.rtlClock := by
  have sameXtal : after.rtlXtal = before.rtlXtal :=
    congrArg Basis.rtlXtal same
  have sameCorr : after.corr = before.corr :=
    congrArg Basis.corr same
  unfold rtlClock
  rw [sameXtal, sameCorr]

/-- The fields of the library determine the basis. -/
theorem basis_of_software
    {before after : Device Stick}
    (same : after.software = before.software) :
    after.basis = before.basis :=
  congrArg
    (fun device : Device Unit =>
      (⟨device.rtlXtal, device.corr, device.directSamplingMode,
        device.tunerType⟩ : Basis))
    same

/-- The IF state decides whether register and tuner agree. -/
theorem IfTracked.of_ifState
    {before after : Device Stick}
    (tracked : before.IfTracked)
    (same : after.ifState = before.ifState) :
    after.IfTracked := by
  have sameRegister :
      after.hardware.demod.ifRegister = before.hardware.demod.ifRegister :=
    congrArg IfState.ifRegister same
  have sameIntFreq :
      after.hardware.tuner.intFreq = before.hardware.tuner.intFreq :=
    congrArg IfState.intFreq same
  unfold IfTracked
  rw [sameRegister, sameIntFreq,
    rtlClock_of_basis (congrArg IfState.basis same)]
  exact tracked

/-- The device after a register write that is done. -/
def demodWritten
    (page addr : Nat)
    (val : UInt16)
    (len : Nat)
    (device : Device Stick) :
    Device Stick :=
  { device with hardware := device.hardware.demodWritten page addr val len }

end Device

section Operations

variable {before after : Device Stick} {answer : Int32}

/-- With transfers that succeed a register write is done. -/
theorem yields_demodWriteReg
    (responsive : before.Responsive)
    {page addr : Nat}
    {val : UInt16}
    {len : Nat} :
    Yields (demodWriteReg r82xxBoard page addr val len)
        before answer after ↔
      0 = answer ∧ before.demodWritten page addr val len = after := by
  simp only [demodWriteReg, onHardware, yields_onPart]
  unfold r82xxBoard
  simp only [yields_bind, yields_get]
  constructor
  · rintro ⟨_, ⟨_, _, ⟨rfl, rfl⟩, wrote⟩, rfl⟩
    rw [if_pos (responsive.demod _), yields_bind] at wrote
    rcases wrote with ⟨_, _, modified, ended⟩
    rcases yields_pure.mp ended with ⟨rfl, rfl⟩
    rw [← yields_modify.mp modified]
    exact ⟨rfl, rfl⟩
  · rintro ⟨rfl, rfl⟩
    refine ⟨before.hardware.demodWritten page addr val len,
      ⟨_, _, ⟨rfl, rfl⟩, ?_⟩, rfl⟩
    rw [if_pos (responsive.demod _), yields_bind]
    exact ⟨⟨⟩, _, yields_modify.mpr rfl, yields_pure.mpr ⟨rfl, rfl⟩⟩

/-- A register write leaves a part of the hardware alone that no outcome of it touches. -/
theorem demodWriteReg_keeps
    {Observed : Type}
    {observe : Device Stick → Observed}
    {page addr : Nat}
    {val : UInt16}
    {len : Nat}
    (written :
      ∀ device,
        observe (device.demodWritten page addr val len) = observe device)
    (missed :
      ∀ device : Device Stick,
        observe { device with hardware := device.hardware.demodMissed } =
          observe device) :
    Keeps observe (demodWriteReg r82xxBoard page addr val len) := by
  intro before answer after yields
  simp only [demodWriteReg, onHardware, yields_onPart] at yields
  unfold r82xxBoard at yields
  simp only [yields_bind, yields_get] at yields
  rcases yields with ⟨_, ⟨_, _, ⟨rfl, rfl⟩, wrote⟩, rfl⟩
  split at wrote <;>
    rw [yields_bind] at wrote <;>
    rcases wrote with ⟨_, _, modified, ended⟩ <;>
    rcases yields_pure.mp ended with ⟨rfl, rfl⟩ <;>
    rw [← yields_modify.mp modified]
  · exact written before
  · exact missed before

theorem demodWriteReg_script
    (page addr : Nat)
    (val : UInt16)
    (len : Nat) :
    Keeps Device.script (demodWriteReg r82xxBoard page addr val len) :=
  demodWriteReg_keeps (fun _ => rfl) (fun _ => rfl)

/-- The bytes of a register write lie in two registers at most. -/
theorem demodBytes_length
    (val : UInt16)
    (len : Nat) :
    (demodBytes val len).length ≤ 2 := by
  unfold demodBytes
  split <;>
    simp

/-- A register write leaves a register of page 1 alone that it does not reach. -/
theorem demodWritten_apart
    {page addr register : Nat}
    (apart : page ≠ 1 ∨ addr + 2 ≤ register ∨ register < addr)
    (device : Device Stick)
    (val : UInt16)
    (len : Nat) :
    (device.demodWritten page addr val len).hardware.demod.registers 1
        register =
      device.hardware.demod.registers 1 register := by
  unfold Device.demodWritten Stick.demodWritten
  dsimp only
  by_cases samePage : page = 1
  · subst samePage
    rw [Function.update_self]
    apply overlay_of_none
    unfold patch
    have short := demodBytes_length val len
    by_cases after : addr ≤ register
    · rw [if_pos after]
      exact List.getElem?_eq_none (by omega)
    · exact if_neg after
  · rw [Function.update_of_ne (fun same => samePage same.symm)]

/-- A register write apart from the IF register leaves it alone. -/
theorem demodWriteReg_ifState
    {page addr : Nat}
    (apart : page ≠ 1 ∨ addr + 2 ≤ 0x19 ∨ 0x1b < addr)
    (val : UInt16)
    (len : Nat) :
    Keeps Device.ifState (demodWriteReg r82xxBoard page addr val len) := by
  refine demodWriteReg_keeps (fun device => ?_) (fun _ => rfl)
  have sameRegister :
      (device.demodWritten page addr val len).hardware.demod.ifRegister =
        device.hardware.demod.ifRegister := by
    unfold Demod.ifRegister
    rw [@demodWritten_apart page addr 0x19 (by omega),
      @demodWritten_apart page addr 0x1a (by omega),
      @demodWritten_apart page addr 0x1b (by omega)]
  exact congrArg
    (fun register => { device.ifState with ifRegister := register })
    sameRegister

/-- A write of one byte to page 1 sets that register and no other. -/
theorem demodWritten_apply
    (device : Device Stick)
    (addr : Nat)
    (val : UInt16)
    (register : Nat) :
    (device.demodWritten 1 addr val 1).hardware.demod.registers 1 register =
      if register = addr then BitVec.ofNat 8 (val &&& 0xff).toNat
      else device.hardware.demod.registers 1 register := by
  unfold Device.demodWritten Stick.demodWritten
  dsimp only
  rw [Function.update_self]
  by_cases same : register = addr
  · subst same
    rw [if_pos rfl]
    exact overlay_of_some (by simp [patch, demodBytes])
  · rw [if_neg same]
    apply overlay_of_none
    unfold patch
    by_cases after : addr ≤ register
    · rw [if_pos after]
      have short : (demodBytes val 1).length = 1 := rfl
      exact List.getElem?_eq_none (by omega)
    · exact if_neg after

/-- The three bytes of a word hold its lower 22 bits. -/
theorem ifFreqBytes
    (word : UInt32) :
    (BitVec.ofNat 8
        ((word >>> 16 &&& 0x3f).toUInt16 &&& 0xff).toNat &&& 0x3f :
          Byte).toNat * 65536 +
      (BitVec.ofNat 8
        ((word >>> 8 &&& 0xff).toUInt16 &&& 0xff).toNat : Byte).toNat * 256 +
      (BitVec.ofNat 8
        ((word &&& 0xff).toUInt16 &&& 0xff).toNat : Byte).toNat =
    word.toNat % 2 ^ 22 := by
  have low6 : ∀ value : Nat, value &&& 63 = value % 64 :=
    fun value => Nat.and_two_pow_sub_one_eq_mod value 6
  have low8 : ∀ value : Nat, value &&& 255 = value % 256 :=
    fun value => Nat.and_two_pow_sub_one_eq_mod value 8
  have bound := word.toNat_lt
  simp [low6, low8, Nat.shiftRight_eq_div_pow]
  omega

/-- The lower 22 bits of the word are the encoding. -/
theorem ifFreqWord_mod
    (freq rtlClock : UInt32) :
    (ifFreqWord freq rtlClock).toNat % 2 ^ 22 = ifEncoding freq rtlClock := by
  unfold ifFreqWord ifEncoding UInt32.ofInt
  generalize freq.toNat * 2 ^ 22 / rtlClock.toNat = quotient
  simp
  omega

/-- `rtlsdr_set_if_freq` encodes the frequency for the clock of the moment. -/
theorem setIfFreq_encodes
    (responsive : before.Responsive)
    {freq : UInt32}
    (yields : Yields (setIfFreq r82xxBoard freq) before answer after) :
    answer = 0 ∧
      after.hardware.tuner = before.hardware.tuner ∧
      after.hardware.demod.ifRegister =
        ifEncoding freq before.rtlClock := by
  have next :
      ∀ {device : Device Stick} (page addr : Nat) (val : UInt16) (len : Nat),
        device.Responsive →
        (device.demodWritten page addr val len).Responsive :=
    fun _ _ _ _ responsive => ⟨responsive.demod, responsive.tuner⟩
  unfold setIfFreq at yields
  rw [yields_bind_of (yields_get.mpr ⟨rfl, rfl⟩)] at yields
  rcases yields_orAll_cons.mp yields with ⟨_, _, _, wrote, yields, rfl⟩
  rcases (yields_demodWriteReg responsive).mp wrote with ⟨rfl, rfl⟩
  rcases yields_orAll_cons.mp yields with ⟨_, _, _, wrote, yields, rfl⟩
  rcases (yields_demodWriteReg (next _ _ _ _ responsive)).mp wrote with
    ⟨rfl, rfl⟩
  rcases yields_orAll_cons.mp yields with ⟨_, _, _, wrote, yields, rfl⟩
  rcases (yields_demodWriteReg
    (next _ _ _ _ (next _ _ _ _ responsive))).mp wrote with ⟨rfl, rfl⟩
  rcases yields_orAll_nil.mp yields with ⟨rfl, rfl⟩
  refine ⟨by decide, rfl, ?_⟩
  rw [← ifFreqWord_mod, ← ifFreqBytes]
  unfold Demod.ifRegister
  simp only [demodWritten_apply]
  rfl

/-- The script of answers on the bus of the tuner. -/
def busScript (priv : Priv) :
    (Nat → Transfer) × (Nat → Transfer × (Nat → Byte)) :=
  (priv.bus.writeAnswers, priv.bus.readAnswers)

/-- A function that keeps the environment of the tuner keeps its script. -/
theorem busScript_of_environment
    {program : Checked Priv Unit}
    (confined : Confined Priv.environment program.run) :
    Keeps busScript program.result :=
  (confined.result.comp busScript).keeps

theorem onTuner_script
    {Value : Type}
    {program : Program Priv Value}
    (kept : Keeps busScript program) :
    Keeps Device.script (onHardware (onTuner program)) := by
  have stick :
      Keeps (fun stick : Stick => (stick.demod.answers, busScript stick.tuner))
        (onTuner program) :=
    Keeps.onPart kept
      (fun _ stick same => congrArg (Prod.mk stick.demod.answers) same)
  exact Keeps.onPart stick (fun _ _ same => same)

theorem onTuner_ifState
    {Value : Type}
    {program : Program Priv Value}
    (kept : Keeps Priv.intFreq program) :
    Keeps Device.ifState (onHardware (onTuner program)) := by
  have stick :
      Keeps (fun stick : Stick => (stick.tuner.intFreq, stick.demod.ifRegister))
        (onTuner program) :=
    Keeps.onPart kept
      (fun _ stick same =>
        congrArg (fun intFreq => (intFreq, stick.demod.ifRegister)) same)
  exact Keeps.onPart stick
    (fun _ device same =>
      congrArg
        (fun radio =>
          { device.ifState with intFreq := radio.1, ifRegister := radio.2 })
        same)

theorem setI2cRepeater_script
    (on : Bool) :
    Keeps Device.script (setI2cRepeater r82xxBoard on) :=
  (demodWriteReg_script _ _ _ _).bind (fun _ => Keeps.pure _)

theorem setI2cRepeater_ifState
    (on : Bool) :
    Keeps Device.ifState (setI2cRepeater r82xxBoard on) :=
  (demodWriteReg_ifState (by decide) _ _).bind (fun _ => Keeps.pure _)

theorem setIfFreq_script
    (freq : UInt32) :
    Keeps Device.script (setIfFreq r82xxBoard freq) := by
  refine Keeps.get.bind (fun device => Keeps.orAll ?_)
  intro operation member
  simp only [List.mem_cons, List.not_mem_nil, or_false] at member
  rcases member with rfl | rfl | rfl <;>
    exact demodWriteReg_script _ _ _ _

theorem initTuner_script
    (context : TunerContext) :
    Keeps busScript (initTuner context) := by
  have configured :
      ∀ priv, busScript (configure context priv) = busScript priv :=
    fun _ => rfl
  exact (Keeps.modify configured).bind
    (fun _ => busScript_of_environment init_environment)

theorem tunerInit_script :
    Keeps Device.script (tunerInit r82xxBoard) :=
  (setI2cRepeater_script true).bind fun _ =>
    Keeps.get.bind fun _ =>
      (onTuner_script (initTuner_script _)).bind fun _ =>
        (setI2cRepeater_script false).bind fun _ => Keeps.pure _

theorem tunerExit_script :
    Keeps Device.script (tunerExit r82xxBoard) :=
  (setI2cRepeater_script true).bind fun _ =>
    (onTuner_script
      (busScript_of_environment standby_within.environment)).bind fun _ =>
        (setI2cRepeater_script false).bind fun _ => Keeps.pure _

theorem switchOperations_script
    (tunerType : TunerType)
    (on : Int) :
    ∀ operation ∈ switchOperations r82xxBoard tunerType on,
      Keeps Device.script operation :=
  switchOperations_forall r82xxBoard
    tunerInit_script
    tunerExit_script
    setIfFreq_script
    (fun _ _ _ _ _ => demodWriteReg_script _ _ _ _)
    tunerType on

theorem tune_script
    (freq : UInt32) :
    Keeps Device.script (tune r82xxBoard freq) :=
  Keeps.get.bind fun _ =>
    Keeps.ite
      ((setI2cRepeater_script false).bind fun _ => setIfFreq_script freq)
      ((setI2cRepeater_script true).bind fun _ =>
        onTuner_script
          (busScript_of_environment ((setFreq_steady _).comp Prod.fst)))

/-- Tuning the tuner leaves the IF register and the intermediate frequency alone. -/
theorem tune_ifState
    {freq : UInt32}
    (throughTuner : before.directSampling = 0)
    (yields : Yields (tune r82xxBoard freq) before answer after) :
    after.ifState = before.ifState := by
  unfold tune at yields
  rw [yields_bind_of (yields_get.mpr ⟨rfl, rfl⟩),
    if_neg (not_not_intro throughTuner)] at yields
  have kept :
      Keeps Device.ifState
        (do
          setI2cRepeater r82xxBoard true
          onHardware
            (onTuner (R82xx.setFreq (freq - before.offsFreq)).result)) :=
    (setI2cRepeater_ifState true).bind fun _ =>
      onTuner_ifState ((setFreq_steady _).result.comp Prod.snd).keeps
  exact kept yields

theorem initTuner_intFreq
    {before after : Priv}
    {context : TunerContext}
    (done : before.AllDone)
    (yields : Yields (initTuner context) before answer after) :
    after.intFreq = r82xxIfFreq := by
  simp only [initTuner, yields_bind, yields_modify] at yields
  rcases yields with ⟨_, _, rfl, yields⟩
  have configured : (configure context before).AllDone :=
    ⟨done.writes, done.reads⟩
  rcases yields_result.mp yields with failed | ⟨ran, _⟩
  · exact init_intFreq configured failed
  · exact init_intFreq configured ran

/-- The calls that `tunerInit` makes on this board. -/
theorem tunerInit_r82xxBoard :
    tunerInit r82xxBoard =
      (do
        setI2cRepeater r82xxBoard true
        let device ← get
        let answer ← onHardware (onTuner (initTuner device.context))
        setI2cRepeater r82xxBoard false
        return answer) :=
  rfl

theorem tunerInit_intFreq
    (responsive : before.Responsive)
    (yields : Yields (tunerInit r82xxBoard) before answer after) :
    after.hardware.tuner.intFreq = r82xxIfFreq := by
  simp only [tunerInit_r82xxBoard, yields_bind, yields_get,
    yields_pure] at yields
  rcases yields with
    ⟨_, opened, turnedOn, _, _, ⟨rfl, rfl⟩, _, called, calls, _, _,
      turnedOff, _, rfl⟩
  have openedResponsive : opened.Responsive :=
    responsive.of_script (setI2cRepeater_script true turnedOn)
  simp only [onHardware, onTuner, yields_onPart] at calls
  rcases calls with ⟨_, ⟨tuner, inits, rfl⟩, rfl⟩
  have intFreq := initTuner_intFreq openedResponsive.tuner inits
  have kept := setI2cRepeater_ifState false turnedOff
  exact (congrArg IfState.intFreq kept).trans intFreq

/-- Turning direct sampling off leaves a register that encodes the tuner's frequency. -/
theorem switchOperations_track
    (responsive : before.Responsive)
    (isR82xx :
      before.tunerType = .r820t ∨ before.tunerType = .r828d)
    (yields :
      Yields (orAll (switchOperations r82xxBoard before.tunerType 0))
        before answer after) :
    after.IfTracked := by
  have operations :
      switchOperations r82xxBoard before.tunerType 0 =
        [tunerInit r82xxBoard,
          setIfFreq r82xxBoard r82xxIfFreq,
          demodWriteReg r82xxBoard 1 0x15 0x01 1,
          demodWriteReg r82xxBoard 0 0x06 0x80 1] := by
    unfold switchOperations disableOperations
    rw [if_neg (by decide), if_pos isR82xx]
    rfl
  rw [operations] at yields
  rcases yields_orAll_cons.mp yields with ⟨_, initialised, _, inits, yields, _⟩
  rcases yields_orAll_cons.mp yields with ⟨_, encoded, _, encodes, yields, _⟩
  have ready : initialised.Responsive :=
    responsive.of_script (tunerInit_script inits)
  rcases setIfFreq_encodes ready encodes with ⟨_, sameTuner, register⟩
  have tracked : encoded.IfTracked := by
    have sameSoftware : encoded.software = initialised.software :=
      setIfFreq_keeps r82xxBoard _ encodes
    have sameClock : encoded.rtlClock = initialised.rtlClock :=
      Device.rtlClock_of_basis (Device.basis_of_software sameSoftware)
    unfold Device.IfTracked
    rw [register, sameTuner, tunerInit_intFreq responsive inits, sameClock]
  have rest :
      Keeps Device.ifState
        (orAll
          [demodWriteReg r82xxBoard 1 0x15 0x01 1,
            demodWriteReg r82xxBoard 0 0x06 0x80 1]) := by
    refine Keeps.orAll ?_
    intro operation member
    simp only [List.mem_cons, List.not_mem_nil, or_false] at member
    rcases member with rfl | rfl <;>
      exact demodWriteReg_ifState (by decide) _ _
  exact tracked.of_ifState (rest yields)

end Operations

namespace Device

/-- In automatic mode the sampling mode is the one for the frequency, if one is set. -/
def Settled (device : Device Stick) : Prop :=
  (device.directSampling = 0 ∧
    (device.tunerType = .r820t →
      device.freq = 0 ∨ 24000000 ≤ device.freq)) ∨
  (device.directSampling = 2 ∧
    device.tunerType = .r820t ∧ device.freq < 24000000)

end Device

/-- What a tuning call does to a device on which every transfer succeeds. -/
structure Retunes (before after : Device Stick) : Prop where
  responsive : after.Responsive
  basis : after.basis = before.basis
  manual :
    before.directSamplingMode ≠ 0 →
    after.directSampling = before.directSampling
  automatic :
    before.directSamplingMode = 0 →
    0 ≤ before.directSampling →
    after.Settled
  tracked :
    after.directSampling = 0 →
    (before.directSampling = 0 ∧
      after.hardware.tuner.intFreq = before.hardware.tuner.intFreq ∧
      after.hardware.demod.ifRegister =
        before.hardware.demod.ifRegister) ∨
    after.IfTracked

section Tuning

variable {before after : Device Stick} {answer : Int32}

/-- A tuning in the mode that belongs to its frequency. -/
theorem Retunes.of_settled
    {freq : UInt32}
    (responsive : before.Responsive)
    (settled : before.directSampling = before.samplingFor freq)
    {middle : Device Stick}
    (tunes : Yields (tune r82xxBoard freq) before answer middle) :
    Retunes before (middle.tuned freq answer) := by
  have software : middle.software = before.software :=
    tune_keeps r82xxBoard freq tunes
  have sameMode : middle.directSampling = before.directSampling :=
    congrArg (fun device : Device Unit => device.directSampling) software
  have sameType : middle.tunerType = before.tunerType :=
    congrArg (fun device : Device Unit => device.tunerType) software
  have middleResponsive : middle.Responsive :=
    responsive.of_script (tune_script freq tunes)
  refine ⟨middleResponsive.of_script rfl, ?_, ?_, ?_, ?_⟩
  · have middleBasis : middle.basis = before.basis :=
      Device.basis_of_software software
    exact middleBasis
  · intro _
    exact sameMode
  · intro automatic _
    have newFreq :
        (middle.tuned freq answer).freq = freq ∨
          (middle.tuned freq answer).freq = 0 := by
      change (if answer = 0 then freq else 0) = freq ∨
        (if answer = 0 then freq else 0) = 0
      split
      · exact Or.inl rfl
      · exact Or.inr rfl
    unfold Device.samplingFor at settled
    rw [if_pos automatic] at settled
    change
      (middle.directSampling = 0 ∧ (middle.tunerType = .r820t → _)) ∨
        (middle.directSampling = 2 ∧ middle.tunerType = .r820t ∧ _)
    rw [sameMode, sameType, settled]
    by_cases direct : freq < 24000000 ∧ before.tunerType = .r820t
    · rw [if_pos direct]
      refine Or.inr ⟨rfl, direct.2, ?_⟩
      rcases newFreq with same | zero
      · rw [same]
        exact direct.1
      · rw [zero]
        decide
    · rw [if_neg direct]
      refine Or.inl ⟨rfl, fun isR820t => ?_⟩
      rcases newFreq with same | zero
      · rw [same]
        exact Or.inr
          (UInt32.not_lt.mp (fun below => direct ⟨below, isR820t⟩))
      · exact Or.inl zero
  · intro throughTuner
    have inUse : before.directSampling = 0 := sameMode.symm.trans throughTuner
    have kept := tune_ifState inUse tunes
    exact Or.inl ⟨inUse, congrArg IfState.intFreq kept,
      congrArg IfState.ifRegister kept⟩

theorem setCenterFreqAt_retunes
    {nested : Nat}
    {freq : UInt32}
    (responsive : before.Responsive)
    (isR82xx :
      before.tunerType = .r820t ∨ before.tunerType = .r828d)
    (yields :
      Yields (setCenterFreqAt r82xxBoard nested freq) before answer after) :
    Retunes before after := by
  induction nested generalizing before freq answer with
  | zero =>
      exact absurd yields not_yields_throw
  | succ nested inductionHypothesis =>
      by_cases unknown : before.directSampling < 0
      · rw [← (setCenterFreqAt_refused (Or.inr unknown) yields).2]
        refine ⟨responsive, rfl, fun _ => rfl, ?_, ?_⟩
        · intro _ known
          exact absurd unknown (Int.not_lt.mpr known)
        · intro inUse
          exact Or.inl ⟨inUse, rfl, rfl⟩
      have known : 0 ≤ before.directSampling := Int.not_lt.mp unknown
      rcases setCenterFreqAt_yields rfl known yields with
        ⟨first, middle, tunes, ends, changes⟩
      by_cases settled : before.directSampling = before.samplingFor freq
      · have aimed : before.aimedAt freq = before := by
          unfold Device.aimedAt
          rw [← settled]
          rfl
        rw [aimed] at tunes
        rw [← (ends settled).2]
        exact Retunes.of_settled responsive settled tunes
      -- The sampling mode changes, so it is chosen automatically.
      have automatic : before.directSamplingMode = 0 := by
        by_contra manual
        exact settled (if_neg manual).symm
      have software :
          middle.software = (before.aimedAt freq).software :=
        tune_keeps r82xxBoard freq tunes
      have type : middle.tunerType = before.tunerType :=
        congrArg (fun device : Device Unit => device.tunerType) software
      have aimedResponsive : (before.aimedAt freq).Responsive :=
        responsive.of_script rfl
      have middleResponsive : middle.Responsive :=
        aimedResponsive.of_script (tune_script freq tunes)
      have tunedResponsive : (middle.tuned freq first).Responsive :=
        middleResponsive.of_script rfl
      rcases switchSampling_yields (changes settled) with
        ⟨switched, last, retuned, switches, lastSoftware, retunes, _⟩
      have lastResponsive : last.Responsive :=
        tunedResponsive.of_script
          (Keeps.orAll (switchOperations_script _ _) switches)
      have lastType : last.tunerType = before.tunerType :=
        (congrArg (fun device : Device Unit => device.tunerType)
          lastSoftware).trans type
      have middleBasis : middle.basis = (before.aimedAt freq).basis :=
        Device.basis_of_software software
      have lastBasis : last.basis = before.basis :=
        (Device.basis_of_software lastSoftware).trans middleBasis
      have later :
          Retunes (last.switchedTo (before.samplingFor freq)) after :=
        inductionHypothesis (lastResponsive.of_script rfl)
          (lastType.symm ▸ isR82xx) retunes
      have lastMode : last.directSamplingMode = 0 :=
        (congrArg Basis.directSamplingMode lastBasis).trans automatic
      refine ⟨later.responsive, later.basis.trans lastBasis,
        fun manual => absurd automatic manual,
        fun _ _ => later.automatic lastMode
          (before.samplingFor_nonneg known freq), ?_⟩
      intro inUse
      rcases later.tracked inUse with ⟨turnedOff, intFreq, register⟩ | tracked
      · change before.samplingFor freq = 0 at turnedOff
        rw [turnedOff] at switches
        have lastTracked : last.IfTracked :=
          switchOperations_track tunedResponsive
            (type.symm ▸ isR82xx) switches
        have clock : after.rtlClock = last.rtlClock :=
          Device.rtlClock_of_basis later.basis
        right
        unfold Device.IfTracked
        rw [register, intFreq, clock]
        exact lastTracked
      · exact Or.inr tracked

end Tuning

end LibRtlSdr.RtlSdr
