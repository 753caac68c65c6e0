import LibRtlSdr.RtlSdrExcursion

namespace LibRtlSdr.RtlSdr

open DriverProgram PartialRun R82xx

/-!
# The clock corrections

A correction in ppm is applied twice: to the resampler, through a register of
14 bits, and to the clock that the tuner is told.  The corrections that
`rtlsdr_set_freq_correction` accepts are not limited to those that either holds.
-/

/-- The calls that set the clocks and the rate. -/
inductive Clocking where
  | freqCorrection (ppm : Int)
  | xtalFreq (rtlFreq tunerFreq : UInt32)
  | sampleRate (sampRate : UInt32)

/-- The call among all those of a program. -/
def Clocking.setter : Clocking → Setter
  | .freqCorrection ppm => .freqCorrection ppm
  | .xtalFreq rtlFreq tunerFreq => .xtalFreq rtlFreq tunerFreq
  | .sampleRate sampRate => .sampleRate sampRate

/-- One call. -/
def Device.clock
    (device : Device Stick)
    (clocking : Clocking) :
    Option (Device Stick) :=
  device.step clocking.setter

/-- The correction of the resampler: 14 bits in two's complement, in two registers. -/
def Demod.correction (demod : Demod) : Int :=
  ((demod.registers 1 0x3e).setWidth 6 ++ demod.registers 1 0x3f).toInt

/-- The correction of the resampler for a correction in ppm. -/
def resamplerCorrection (ppm : Int) : Int :=
  (-ppm * 2 ^ 24).tdiv 1000000

/-- A correction of the resampler that its 14 bits hold. -/
def Representable (ppm : Int) : Prop :=
  -2 ^ 13 ≤ resamplerCorrection ppm ∧ resamplerCorrection ppm < 2 ^ 13

/-- A correction that the resampler holds, and with which the tuner's clock fits. -/
def Correctable (tunXtal : UInt32) (ppm : Int) : Prop :=
  (-488 ≤ ppm ∧ ppm ≤ 488) ∧
    (tunXtal.toNat : Int) * (1000000 + ppm) / 1000000 < 2 ^ 32

namespace Device

/-- Resampler and tuner are corrected by what the library stores. -/
structure Corrected (device : Device Stick) : Prop where
  resampler :
    device.hardware.demod.correction = resamplerCorrection device.corr
  tuner :
    (device.hardware.tuner.xtal.toNat : Int) =
      (device.tunXtal.toNat : Int) * (1000000 + device.corr) / 1000000

/-- The call is a correction that the library reports as successful. -/
def Accepts (device : Device Stick) (clocking : Clocking) : Prop :=
  ∃ ppm after,
    clocking = .freqCorrection ppm ∧
      Yields (setFreqCorrection ppm) device 0 after

/-- The tuner clock that `rtlsdr_set_xtal_freq` stores when it does not refuse. -/
def tunXtalFor
    (device : Device Stick)
    (rtlFreq tunerFreq : UInt32) :
    UInt32 :=
  if device.tunXtal ≠ tunerFreq then
    if tunerFreq = 0 then (device.clockedBy rtlFreq).rtlXtal else tunerFreq
  else
    device.tunXtal

/-- The clocks that a call sets are those of a correction that is possible. -/
def Suits (device : Device Stick) : Clocking → Prop
  | .freqCorrection ppm =>
      device.corr ≠ ppm → Correctable device.tunXtal ppm
  | .xtalFreq rtlFreq tunerFreq =>
      ¬ RefusedXtal rtlFreq →
        Correctable (device.tunXtalFor rtlFreq tunerFreq) device.corr
  | .sampleRate _ => True

end Device

/-- A correction was accepted in the run. -/
def AcceptedOne (opened : Device Stick) (clockings : List Clocking) : Prop :=
  SomeStep Device.clock (fun _ device clocking => device.Accepts clocking)
    opened clockings

section Register

/-- The bytes that `rtlsdr_set_sample_freq_correction` writes to 0x3e and 0x3f. -/
def correctionBytes (ppm : Int) : Byte × Byte :=
  let offs := BitVec.ofInt 16 (resamplerCorrection ppm)
  (BitVec.ofNat 8 (UInt16.ofBitVec (offs >>> 8 &&& 0x3f) &&& 0xff).toNat,
    BitVec.ofNat 8 (UInt16.ofBitVec (offs &&& 0xff) &&& 0xff).toNat)

/-- The two bytes of a word hold its lower 14 bits. -/
theorem correctionBytes_word
    (offs : BitVec 16) :
    (BitVec.ofNat 8
        (UInt16.ofBitVec (offs >>> 8 &&& 0x3f) &&& 0xff).toNat).setWidth 6 ++
      (BitVec.ofNat 8 (UInt16.ofBitVec (offs &&& 0xff) &&& 0xff).toNat : Byte) =
    offs.setWidth 14 := by
  have low6 : ∀ value : Nat, value &&& 63 = value % 64 :=
    fun value => Nat.and_two_pow_sub_one_eq_mod value 6
  have low8 : ∀ value : Nat, value &&& 255 = value % 256 :=
    fun value => Nat.and_two_pow_sub_one_eq_mod value 8
  have high :
      (UInt16.ofBitVec (offs >>> 8 &&& 0x3f) &&& 0xff).toNat =
        offs.toNat / 256 % 64 := by
    change (offs.toNat >>> 8 &&& 63) &&& 255 = _
    rw [low8, low6, Nat.shiftRight_eq_div_pow]
    omega
  have low :
      (UInt16.ofBitVec (offs &&& 0xff) &&& 0xff).toNat =
        offs.toNat % 256 := by
    change (offs.toNat &&& 255) &&& 255 = _
    rw [low8, low8]
    omega
  apply BitVec.eq_of_toNat_eq
  rw [BitVec.toNat_append, ← Nat.shiftLeft_add_eq_or_of_lt (BitVec.isLt _),
    high, low, Nat.shiftLeft_eq]
  simp only [BitVec.toNat_setWidth, BitVec.toNat_ofNat]
  omega

/-- The register shows the correction cut to 14 bits. -/
theorem correctionBytes_toInt
    (ppm : Int) :
    ((correctionBytes ppm).1.setWidth 6 ++ (correctionBytes ppm).2).toInt =
      (resamplerCorrection ppm).bmod (2 ^ 14) := by
  have narrowed :
      ∀ correction : Int,
        (BitVec.ofInt 16 correction).setWidth 14 =
          BitVec.ofInt 14 correction := by
    intro correction
    apply BitVec.eq_of_toNat_eq
    simp only [BitVec.toNat_setWidth, BitVec.toNat_ofInt]
    omega
  unfold correctionBytes
  dsimp only
  rw [correctionBytes_word, narrowed]
  exact BitVec.toInt_ofInt _

theorem bmod_eq_iff_representable
    (ppm : Int) :
    (resamplerCorrection ppm).bmod (2 ^ 14) = resamplerCorrection ppm ↔
      Representable ppm := by
  unfold Representable
  generalize resamplerCorrection ppm = correction
  simp only [Int.bmod]
  omega

/-- The corrections that the resampler holds. -/
theorem representable_iff
    (ppm : Int) :
    Representable ppm ↔ -488 ≤ ppm ∧ ppm ≤ 488 := by
  unfold Representable resamplerCorrection
  rcases Int.le_total 0 ppm with nonneg | nonpos
  · rw [Int.neg_mul, Int.neg_tdiv, Int.tdiv_eq_ediv_of_nonneg (by omega)]
    omega
  · rw [Int.tdiv_eq_ediv_of_nonneg (by omega)]
    omega

end Register

/-- The clocks of a device, and what its resampler holds of the correction. -/
structure Clocks where
  rtlXtal : UInt32
  tunXtal : UInt32
  corr : Int
  bytes : Byte × Byte

/-- The clocks when the correction has been given to the resampler. -/
def Clocks.recorded (clocks : Clocks) : Clocks :=
  { clocks with bytes := correctionBytes clocks.corr }

namespace Device

/-- The clocks of a device. -/
def clocks (device : Device Stick) : Clocks where
  rtlXtal := device.rtlXtal
  tunXtal := device.tunXtal
  corr := device.corr
  bytes :=
    (device.hardware.demod.registers 1 0x3e,
      device.hardware.demod.registers 1 0x3f)

/--
A device with these clocks that is not tuned: its transfers succeed, and its
tuner knows the corrected clock.
-/
structure Rests (clocks : Clocks) (device : Device Stick) : Prop where
  responsive : device.Responsive
  freq : device.freq = 0
  xtal : device.hardware.tuner.xtal = device.tunerClock
  clocks : device.clocks = clocks

/-- What decides whether a device rests. -/
def resting
    (device : Device Stick) :
    (Nat → Bool) × Priv × UInt32 × Clocks :=
  (device.hardware.demod.answers, device.hardware.tuner.environment,
    device.freq, device.clocks)

theorem tunerClock_of_clocks
    {before after : Device Stick}
    (same : after.clocks = before.clocks) :
    after.tunerClock = before.tunerClock := by
  have sameXtal : after.tunXtal = before.tunXtal :=
    congrArg Clocks.tunXtal same
  have sameCorr : after.corr = before.corr :=
    congrArg Clocks.corr same
  unfold tunerClock
  rw [sameXtal, sameCorr]

theorem Rests.of_resting
    {clocks : Clocks}
    {before after : Device Stick}
    (rests : before.Rests clocks)
    (same : after.resting = before.resting) :
    after.Rests clocks := by
  rcases Prod.mk.inj same with ⟨sameAnswers, same⟩
  rcases Prod.mk.inj same with ⟨sameTuner, same⟩
  rcases Prod.mk.inj same with ⟨sameFreq, sameClocks⟩
  refine ⟨⟨?_, ?_⟩, sameFreq.trans rests.freq, ?_,
    sameClocks.trans rests.clocks⟩
  · intro place
    rw [sameAnswers]
    exact rests.responsive.demod place
  · exact rests.responsive.tuner.of_environment sameTuner
  · have sameXtal :
        after.hardware.tuner.environment.xtal =
          before.hardware.tuner.environment.xtal :=
      congrArg Priv.xtal sameTuner
    exact (sameXtal.trans rests.xtal).trans
      (tunerClock_of_clocks sameClocks).symm

end Device

section Operations

variable {clocks : Clocks}

/-- What leaves alone what decides it, leaves a device at rest. -/
theorem maintains_of_resting
    {Value : Type}
    {program : Program (Device Stick) Value}
    (kept : Keeps Device.resting program) :
    Maintains (Device.Rests clocks) program :=
  kept.maintains fun _ _ rests same => rests.of_resting same

/-- A register write apart from the correction of the resampler. -/
theorem demodWriteReg_resting
    {page addr : Nat}
    (apart : page ≠ 1 ∨ addr + 2 ≤ 0x3e ∨ 0x3f < addr)
    (val : UInt16)
    (len : Nat) :
    Keeps Device.resting (demodWriteReg r82xxBoard page addr val len) := by
  refine demodWriteReg_keeps (fun device => ?_) (fun _ => rfl)
  have sameBytes :
      (device.demodWritten page addr val len).clocks.bytes =
        device.clocks.bytes :=
    Prod.ext
      (demodWritten_apart (by omega) device val len)
      (demodWritten_apart (by omega) device val len)
  exact congrArg
    (fun bytes =>
      (device.hardware.demod.answers, device.hardware.tuner.environment,
        device.freq, { device.clocks with bytes := bytes }))
    sameBytes

theorem onTuner_resting
    {Value : Type}
    {program : Program Priv Value}
    (kept : Keeps Priv.environment program) :
    Keeps Device.resting (onHardware (onTuner program)) := by
  have stick :
      Keeps
        (fun stick : Stick => (stick.demod, stick.tuner.environment))
        (onTuner program) :=
    Keeps.onPart kept
      (fun _ stick same => congrArg (Prod.mk stick.demod) same)
  refine Keeps.onPart stick fun stick device same => ?_
  rcases Prod.mk.inj same with ⟨sameDemod, sameTuner⟩
  unfold Device.resting Device.clocks
  dsimp only
  rw [sameDemod, sameTuner]

theorem setI2cRepeater_resting
    (on : Bool) :
    Keeps Device.resting (setI2cRepeater r82xxBoard on) :=
  (demodWriteReg_resting (by decide) _ _).bind (fun _ => Keeps.pure _)

theorem setIfFreq_resting
    (freq : UInt32) :
    Keeps Device.resting (setIfFreq r82xxBoard freq) := by
  refine Keeps.get.bind (fun device => Keeps.orAll ?_)
  intro operation member
  simp only [List.mem_cons, List.not_mem_nil, or_false] at member
  rcases member with rfl | rfl | rfl <;>
    exact demodWriteReg_resting (by decide) _ _

theorem tune_resting
    (freq : UInt32) :
    Keeps Device.resting (tune r82xxBoard freq) :=
  Keeps.get.bind fun _ =>
    Keeps.ite
      ((setI2cRepeater_resting false).bind fun _ => setIfFreq_resting freq)
      ((setI2cRepeater_resting true).bind fun _ =>
        onTuner_resting ((setFreq_steady _).comp Prod.fst).result.keeps)

theorem tunerExit_resting :
    Keeps Device.resting (tunerExit r82xxBoard) :=
  (setI2cRepeater_resting true).bind fun _ =>
    (onTuner_resting standby_within.environment.result.keeps).bind fun _ =>
      (setI2cRepeater_resting false).bind fun _ => Keeps.pure _

/-- `r820t_init` tells the tuner its clock. -/
theorem initTuner_xtal
    {context : TunerContext}
    {before after : Priv}
    {answer : Int32}
    (yields : Yields (initTuner context) before answer after) :
    after.xtal = context.tunerClock := by
  simp only [initTuner, yields_bind, yields_modify] at yields
  rcases yields with ⟨_, _, rfl, yields⟩
  have kept :
      after.environment.xtal =
        (configure context before).environment.xtal :=
    congrArg Priv.xtal (init_environment.result.keeps yields)
  exact kept

theorem initTuner_rests
    {context : TunerContext}
    (clock : context.tunerClock = applyPpmCorr clocks.tunXtal clocks.corr) :
    Maintains (Device.Rests clocks)
      (onHardware (onTuner (initTuner context))) := by
  intro before answer after rests yields
  have responsive : after.Responsive :=
    rests.responsive.of_script (onTuner_script (initTuner_script _) yields)
  simp only [onHardware, onTuner, yields_onPart] at yields
  rcases yields with ⟨_, ⟨tuner, inits, rfl⟩, rfl⟩
  refine ⟨responsive, rests.freq, ?_, rests.clocks⟩
  have sameClock :
      before.tunerClock = applyPpmCorr clocks.tunXtal clocks.corr := by
    rw [← rests.clocks]
    rfl
  exact ((initTuner_xtal inits).trans clock).trans sameClock.symm

theorem tunerInit_rests :
    Maintains (Device.Rests clocks) (tunerInit r82xxBoard) := by
  rw [tunerInit_r82xxBoard]
  refine (maintains_of_resting (setI2cRepeater_resting true)).bind fun _ => ?_
  refine Maintains.getBind fun device rests => ?_
  have clock :
      device.context.tunerClock = applyPpmCorr clocks.tunXtal clocks.corr := by
    rw [← rests.clocks]
    rfl
  exact (initTuner_rests clock).bind fun _ =>
    (maintains_of_resting (setI2cRepeater_resting false)).bind fun _ =>
      Maintains.pure _

/-- A tuning to zero leaves a device at rest. -/
theorem rests_tuningInvariant :
    TuningInvariant r82xxBoard (fun freq => freq = 0)
      (Device.Rests clocks) where
  kind rests := rests.freq
  switchedTo _ rests :=
    ⟨rests.responsive.of_script rfl, rests.freq, rests.xtal, rests.clocks⟩
  tuned answer isZero rests := by
    subst isZero
    exact ⟨rests.responsive.of_script rfl, ite_self 0, rests.xtal,
      rests.clocks⟩
  tune _ := maintains_of_resting (tune_resting _)
  operations :=
    switchOperations_forall r82xxBoard
      tunerInit_rests
      (maintains_of_resting tunerExit_resting)
      (fun _ => maintains_of_resting (setIfFreq_resting _))
      (fun _ _ _ _ within =>
        maintains_of_resting (demodWriteReg_resting (by omega) _ _))

theorem setBw_rests
    (bw : Int) :
    Maintains (Device.Rests clocks) (setBw bw) := by
  have sets :
      Maintains (Device.Rests clocks)
        (onHardware (onTuner (R82xx.setBandwidth bw).run)) :=
    maintains_of_resting (onTuner_resting (setBandwidth_environment bw).keeps)
  refine sets.bind fun outcome => ?_
  cases outcome with
  | error code =>
      exact Maintains.pure _
  | ok intFreq =>
      refine (maintains_of_resting (setIfFreq_resting intFreq)).bind
        fun answer => ?_
      refine Maintains.ite (fun _ => Maintains.pure _) fun _ => ?_
      refine Maintains.getBind fun device rests => ?_
      exact rests_tuningInvariant.setCenterFreqAt 3 rests.freq

/-- The correction is written to the resampler, and nothing else changes. -/
theorem setSampleFreqCorrection_yields
    {before after : Device Stick}
    {ppm : Int}
    {answer : Int32}
    (responsive : before.Responsive)
    (yields : Yields (setSampleFreqCorrection ppm) before answer after) :
    answer = 0 ∧
      after.Responsive ∧
        after.freq = before.freq ∧
          after.hardware.tuner = before.hardware.tuner ∧
            after.clocks =
              { before.clocks with bytes := correctionBytes ppm } := by
  have written :
      ∀ {device : Device Stick} (addr : Nat) (val : UInt16),
        device.Responsive → (device.demodWritten 1 addr val 1).Responsive :=
    fun _ _ responsive => ⟨responsive.demod, responsive.tuner⟩
  unfold setSampleFreqCorrection at yields
  rcases yields_orAll_cons.mp yields with ⟨_, _, _, wrote, yields, rfl⟩
  rcases (yields_demodWriteReg responsive).mp wrote with ⟨rfl, rfl⟩
  rcases yields_orAll_cons.mp yields with ⟨_, _, _, wrote, yields, rfl⟩
  rcases (yields_demodWriteReg (written _ _ responsive)).mp wrote with
    ⟨rfl, rfl⟩
  rcases yields_orAll_nil.mp yields with ⟨rfl, rfl⟩
  refine ⟨by decide, written _ _ (written _ _ responsive), rfl, rfl, ?_⟩
  unfold Device.clocks
  simp only [demodWritten_apply]
  rfl

end Operations

/-- The correction is written to the resampler of a device at rest. -/
theorem Device.Rests.corrected
    {clocks : Clocks}
    {before after : Device Stick}
    {answer : Int32}
    (rests : before.Rests clocks)
    (yields :
      Yields (setSampleFreqCorrection clocks.corr) before answer after) :
    after.Rests clocks.recorded := by
  rcases setSampleFreqCorrection_yields rests.responsive yields with
    ⟨_, responsive, sameFreq, sameTuner, isClocked⟩
  rw [rests.clocks] at isClocked
  refine ⟨responsive, sameFreq.trans rests.freq, ?_, isClocked⟩
  have sameClock : after.tunerClock = before.tunerClock := by
    unfold Device.tunerClock
    rw [show after.tunXtal = clocks.tunXtal from
        congrArg Clocks.tunXtal isClocked,
      show after.corr = clocks.corr from congrArg Clocks.corr isClocked,
      ← rests.clocks]
    rfl
  rw [sameTuner, sameClock]
  exact rests.xtal

section Setters

variable {clocks : Clocks} {before after : Device Stick} {answer : Int32}

/-- A rate that is supported comes with the correction that is stored. -/
theorem setSampleRate_rests
    {sampRate : UInt32}
    (rests : before.Rests clocks)
    (yields : Yields (setSampleRate sampRate) before answer after) :
    after.Rests clocks ∨ after.Rests clocks.recorded := by
  by_cases supported : SupportedRate sampRate
  · right
    unfold setSampleRate at yields
    rw [if_neg (not_not_intro supported)] at yields
    simp only [yields_bind, yields_get, yields_modify] at yields
    rcases yields with
      ⟨_, _, ⟨rfl, rfl⟩, _, stored, isStored, _, opened, turnedOn,
        _, _, ⟨rfl, rfl⟩, _, narrowed, sets, _, closed, turnedOff,
        _, _, ⟨rfl, rfl⟩, writes⟩
    have rated :
        ∀ rate, ({ before with rate := rate } : Device Stick).Rests clocks :=
      fun _ =>
        ⟨rests.responsive.of_script rfl, rests.freq, rests.xtal, rests.clocks⟩
    have storedRests : stored.Rests clocks := by
      rw [← isStored]
      exact rated _
    have openedRests : opened.Rests clocks :=
      storedRests.of_resting (setI2cRepeater_resting true turnedOn)
    have narrowedRests : narrowed.Rests clocks :=
      setBw_rests _ openedRests sets
    have closedRests : closed.Rests clocks :=
      narrowedRests.of_resting (setI2cRepeater_resting false turnedOff)
    have sameCorr : closed.corr = clocks.corr :=
      congrArg Clocks.corr closedRests.clocks
    rw [sameCorr] at writes
    have writeRests :
        ∀ {clocks : Clocks} {addr : Nat},
          (addr + 2 ≤ 0x3e ∨ 0x3f < addr) →
          ∀ val len,
            Maintains (Device.Rests clocks)
              (demodWriteReg r82xxBoard 1 addr val len) :=
      fun apart _ _ =>
        maintains_of_resting (demodWriteReg_resting (Or.inr apart) _ _)
    rcases yields_orAll_cons.mp writes with ⟨_, _, _, wroteHigh, writes, _⟩
    rcases yields_orAll_cons.mp writes with ⟨_, _, _, wroteLow, writes, _⟩
    rcases yields_orAll_cons.mp writes with ⟨_, _, _, corrects, writes, _⟩
    rcases yields_orAll_cons.mp writes with ⟨_, _, _, resets, writes, _⟩
    rcases yields_orAll_cons.mp writes with ⟨_, _, _, releases, writes, _⟩
    rcases yields_orAll_nil.mp writes with ⟨_, rfl⟩
    have rateRests :=
      writeRests (by decide) _ _
        (writeRests (by decide) _ _ closedRests wroteHigh) wroteLow
    exact writeRests (by decide) _ _
      (writeRests (by decide) _ _
        (rateRests.corrected corrects) resets) releases
  · left
    rw [← setSampleRate_refused supported yields]
    exact rests

/-- The tuner of a device that is not tuned is told the corrected clock. -/
theorem readTunerClock_rests
    {nothing : Unit}
    (responsive : before.Responsive)
    (untuned : before.freq = 0)
    (yields : Yields readTunerClock before nothing after) :
    after.Rests before.clocks := by
  simp only [readTunerClock, onHardware, onTuner, yields_bind, yields_get,
    yields_onPart, yields_modify] at yields
  rcases yields with ⟨_, _, ⟨rfl, rfl⟩, _, ⟨_, rfl, rfl⟩, rfl⟩
  exact ⟨⟨responsive.demod, responsive.tuner.writes, responsive.tuner.reads⟩,
    untuned, rfl, rfl⟩

/-- Without a frequency there is nothing to tune again. -/
theorem retune_rests
    {unset : Int32}
    (rests : before.Rests clocks)
    (yields : Yields (retune unset) before answer after) :
    unset = answer ∧ before = after := by
  unfold retune at yields
  rw [yields_bind_of (yields_get.mpr ⟨rfl, rfl⟩),
    if_neg (not_not_intro rests.freq)] at yields
  exact yields_pure.mp yields

/-- A correction is accepted unless it is the one that is set. -/
theorem setFreqCorrection_rests
    {ppm : Int}
    (rests : before.Rests clocks)
    (yields : Yields (setFreqCorrection ppm) before answer after) :
    (clocks.corr = ppm ∧ answer ≠ 0 ∧ before = after) ∨
      (clocks.corr ≠ ppm ∧ answer = 0 ∧
        after.Rests ({ clocks with corr := ppm } : Clocks).recorded) := by
  have sameCorr : before.corr = clocks.corr :=
    congrArg Clocks.corr rests.clocks
  unfold setFreqCorrection at yields
  rw [yields_bind_of (yields_get.mpr ⟨rfl, rfl⟩), sameCorr] at yields
  split at yields
  · rcases yields_pure.mp yields with ⟨rfl, same⟩
    exact Or.inl ⟨‹_›, by decide, same⟩
  · simp only [yields_bind, yields_modify, yields_pure] at yields
    rcases yields with
      ⟨_, _, rfl, _, written, writes, _, _, reads, _, _, retunes, rfl, rfl⟩
    have storedResponsive :
        ({ before with corr := ppm } : Device Stick).Responsive :=
      rests.responsive.of_script rfl
    rcases setSampleFreqCorrection_yields storedResponsive writes with
      ⟨rfl, responsive, sameFreq, _, sameClocks⟩
    have readRests :=
      readTunerClock_rests responsive (sameFreq.trans rests.freq) reads
    rcases retune_rests readRests retunes with ⟨rfl, rfl⟩
    refine Or.inr ⟨‹_›, by decide, ?_⟩
    rw [sameClocks] at readRests
    rw [← rests.clocks]
    exact readRests

/-- The part for the RTL clock stores it, and may write the correction again. -/
theorem setRtlXtal_rests
    {rtlFreq : UInt32}
    (rests : before.Rests clocks)
    (yields : Yields (setRtlXtal rtlFreq) before answer after) :
    ∃ later,
      after.Rests later ∧
        later.rtlXtal = (before.clockedBy rtlFreq).rtlXtal ∧
          later.tunXtal = clocks.tunXtal ∧
            later.corr = clocks.corr ∧
              (later.bytes = clocks.bytes ∨
                later.bytes = correctionBytes clocks.corr) := by
  have sameXtal : before.rtlXtal = clocks.rtlXtal :=
    congrArg Clocks.rtlXtal rests.clocks
  have storedRests :
      ({ before with rtlXtal := rtlFreq } : Device Stick).Rests
        { clocks with rtlXtal := rtlFreq } := by
    refine ⟨rests.responsive.of_script rfl, rests.freq, rests.xtal, ?_⟩
    rw [← rests.clocks]
    rfl
  unfold setRtlXtal at yields
  rw [yields_bind_of (yields_get.mpr ⟨rfl, rfl⟩)] at yields
  by_cases isNew : 0 < rtlFreq ∧ before.rtlXtal ≠ rtlFreq
  · rw [if_pos isNew] at yields
    simp only [yields_bind, yields_modify] at yields
    rcases yields with ⟨_, _, rfl, yields⟩
    have clocked : (before.clockedBy rtlFreq).rtlXtal = rtlFreq := by
      unfold Device.clockedBy
      rw [if_pos isNew.1]
    rw [clocked]
    split at yields
    · rcases setSampleRate_rests storedRests yields with same | recorded
      · exact ⟨_, same, rfl, rfl, rfl, Or.inl rfl⟩
      · exact ⟨_, recorded, rfl, rfl, rfl, Or.inr rfl⟩
    · rw [← (yields_pure.mp yields).2]
      exact ⟨_, storedRests, rfl, rfl, rfl, Or.inl rfl⟩
  · rw [if_neg isNew] at yields
    rw [← (yields_pure.mp yields).2]
    have clocked : clocks.rtlXtal = (before.clockedBy rtlFreq).rtlXtal := by
      rw [← sameXtal]
      unfold Device.clockedBy
      split
      · by_contra differs
        exact isNew ⟨‹_›, differs⟩
      · rfl
    exact ⟨clocks, rests, clocked, rfl, rfl, Or.inl rfl⟩

/-- The part for the tuner clock. -/
theorem setTunXtal_rests
    {tunerFreq : UInt32}
    {earlier : Int32}
    (rests : before.Rests clocks)
    (yields : Yields (setTunXtal tunerFreq earlier) before answer after) :
    after.Rests
      { clocks with
        tunXtal :=
          if clocks.tunXtal ≠ tunerFreq then
            if tunerFreq = 0 then clocks.rtlXtal else tunerFreq
          else
            clocks.tunXtal } := by
  rw [← rests.clocks]
  unfold setTunXtal at yields
  rw [yields_bind_of (yields_get.mpr ⟨rfl, rfl⟩)] at yields
  by_cases isNew : before.tunXtal ≠ tunerFreq
  · rw [if_pos isNew] at yields
    simp only [yields_bind, yields_modify] at yields
    rcases yields with ⟨_, stored, isStored, _, read, reads, retunes⟩
    have storedResponsive : stored.Responsive := by
      rw [← isStored]
      exact rests.responsive.of_script rfl
    have untuned : stored.freq = 0 := by
      rw [← isStored]
      exact rests.freq
    have readRests := readTunerClock_rests storedResponsive untuned reads
    rw [← (retune_rests readRests retunes).2]
    have isNewClock : before.clocks.tunXtal ≠ tunerFreq := isNew
    rw [if_pos isNewClock]
    rw [← isStored] at readRests
    exact readRests
  · rw [if_neg isNew] at yields
    rw [← (yields_pure.mp yields).2]
    have isOldClock : ¬ before.clocks.tunXtal ≠ tunerFreq := isNew
    rw [if_neg isOldClock]
    exact ⟨rests.responsive, rests.freq, rests.xtal, rfl⟩

end Setters

namespace Device

/-- A device between two calls of a run that never tunes it. -/
def AtRest (device : Device Stick) : Prop :=
  device.Rests device.clocks

/-- The resampler has been given the correction that is stored. -/
def Recorded (device : Device Stick) : Prop :=
  device.clocks.bytes = correctionBytes device.corr

theorem Rests.atRest
    {clocks : Clocks}
    {device : Device Stick}
    (rests : device.Rests clocks) :
    device.AtRest := by
  unfold AtRest
  rw [rests.clocks]
  exact rests

end Device

/-- What a call does to a device at rest. -/
structure Clocked
    (before : Device Stick)
    (clocking : Clocking)
    (after : Device Stick) : Prop where
  atRest : after.AtRest
  recorded : before.Recorded ∨ before.Accepts clocking → after.Recorded
  unchanged : ¬ before.Accepts clocking → after.corr = before.corr
  suits :
    Correctable before.tunXtal before.corr →
    (Correctable after.tunXtal after.corr ↔ before.Suits clocking)
  corr :
    ∀ ppm,
      clocking = .freqCorrection ppm →
      before.Accepts clocking →
      after.corr = ppm

section Steps

variable {before after : Device Stick} {answer : Int32}

theorem setFreqCorrection_clocked
    {ppm : Int}
    (atRest : before.AtRest)
    (yields : Yields (setFreqCorrection ppm) before answer after) :
    Clocked before (.freqCorrection ppm) after := by
  have accepts :
      before.Accepts (.freqCorrection ppm) ↔ answer = 0 := by
    constructor
    · rintro ⟨_, _, same, accepted⟩
      cases same
      exact (yields.functional accepted).1
    · rintro rfl
      exact ⟨ppm, after, rfl, yields⟩
  rcases setFreqCorrection_rests atRest yields with
    ⟨isSet, refused, rfl⟩ | ⟨isNew, accepted, rests⟩
  · have isSame : before.corr = ppm := isSet
    refine ⟨atRest, ?_, fun _ => rfl, fun correctable => ?_, ?_⟩
    · rintro (recorded | absurdity)
      · exact recorded
      · exact absurd (accepts.mp absurdity) refused
    · exact ⟨fun _ isNew => absurd isSame isNew, fun _ => correctable⟩
    · intro _ _ absurdity
      exact absurd (accepts.mp absurdity) refused
  · have isOther : before.corr ≠ ppm := isNew
    have newCorr : after.corr = ppm := congrArg Clocks.corr rests.clocks
    have sameXtal : after.tunXtal = before.tunXtal :=
      congrArg Clocks.tunXtal rests.clocks
    refine ⟨rests.atRest, fun _ => ?_, ?_, fun _ => ?_, ?_⟩
    · unfold Device.Recorded
      rw [rests.clocks, newCorr]
      rfl
    · intro absurdity
      exact absurd (accepts.mpr accepted) absurdity
    · rw [newCorr, sameXtal]
      exact ⟨fun correctable _ => correctable, fun suits => suits isOther⟩
    · intro other same _
      cases same
      exact newCorr

/-- Calls that are no correction keep the one that is stored. -/
theorem Clocked.of_rests
    {clocking : Clocking}
    {later : Clocks}
    (noCorrection : ∀ ppm, clocking ≠ .freqCorrection ppm)
    (rests : after.Rests later)
    (sameCorr : later.corr = before.corr)
    (written :
      later.bytes = before.clocks.bytes ∨
        later.bytes = correctionBytes before.corr)
    (suits :
      Correctable before.tunXtal before.corr →
      (Correctable later.tunXtal before.corr ↔ before.Suits clocking)) :
    Clocked before clocking after := by
  have notAccepted : ¬ before.Accepts clocking := by
    rintro ⟨ppm, _, same, _⟩
    exact noCorrection ppm same
  have afterCorr : after.corr = before.corr :=
    (congrArg Clocks.corr rests.clocks).trans sameCorr
  have afterXtal : after.tunXtal = later.tunXtal :=
    congrArg Clocks.tunXtal rests.clocks
  refine ⟨rests.atRest, ?_, fun _ => afterCorr, fun correctable => ?_,
    fun ppm same => absurd same (noCorrection ppm)⟩
  · rintro (recorded | accepted)
    · unfold Device.Recorded
      rw [rests.clocks, afterCorr]
      rcases written with same | isNew
      · exact same.trans recorded
      · exact isNew
    · exact absurd accepted notAccepted
  · rw [afterCorr, afterXtal]
    exact suits correctable

theorem setSampleRate_clocked
    {sampRate : UInt32}
    (atRest : before.AtRest)
    (yields : Yields (setSampleRate sampRate) before answer after) :
    Clocked before (.sampleRate sampRate) after := by
  have always :
      Correctable before.tunXtal before.corr →
      (Correctable before.tunXtal before.corr ↔
        before.Suits (.sampleRate sampRate)) :=
    fun correctable => ⟨fun _ => trivial, fun _ => correctable⟩
  rcases setSampleRate_rests atRest yields with same | recorded
  · exact Clocked.of_rests (fun _ absurdity => by cases absurdity) same rfl
      (Or.inl rfl) always
  · exact Clocked.of_rests (fun _ absurdity => by cases absurdity) recorded rfl
      (Or.inr rfl) always

theorem setXtalFreq_clocked
    {rtlFreq tunerFreq : UInt32}
    (atRest : before.AtRest)
    (yields : Yields (setXtalFreq rtlFreq tunerFreq) before answer after) :
    Clocked before (.xtalFreq rtlFreq tunerFreq) after := by
  unfold setXtalFreq at yields
  by_cases refused : RefusedXtal rtlFreq
  · rw [if_pos refused] at yields
    rw [← (yields_pure.mp yields).2]
    exact Clocked.of_rests (fun _ absurdity => by cases absurdity) atRest rfl
      (Or.inl rfl)
      (fun correctable =>
        ⟨fun _ accepted => absurd refused accepted, fun _ => correctable⟩)
  · rw [if_neg refused] at yields
    rcases yields_bind.mp yields with ⟨_, middle, clocks, yields⟩
    rcases setRtlXtal_rests atRest clocks with
      ⟨later, rests, rtlXtal, tunXtal, corr, written⟩
    have afterRests := setTunXtal_rests rests yields
    rw [tunXtal, rtlXtal] at afterRests
    exact Clocked.of_rests (fun _ absurdity => by cases absurdity) afterRests
      corr written
      (fun _ => ⟨fun correctable _ => correctable, fun suits => suits refused⟩)

/-- Each of the calls, on a device at rest. -/
theorem clock_clocked
    {clocking : Clocking}
    (atRest : before.AtRest)
    (taken : before.clock clocking = some after) :
    Clocked before clocking after := by
  rcases Device.step_eq_some.mp taken with ⟨_, yields⟩
  cases clocking with
  | freqCorrection ppm =>
      exact setFreqCorrection_clocked atRest yields
  | xtalFreq rtlFreq tunerFreq =>
      exact setXtalFreq_clocked atRest yields
  | sampleRate sampRate =>
      exact setSampleRate_clocked atRest yields

/-- A device that is opened is not tuned, and its clocks are not corrected. -/
theorem Opened.atRest
    {opened : Device Stick}
    (isOpened : Opened opened) :
    opened.AtRest ∧ opened.corr = 0 := by
  have responsive := isOpened.sane_tracks.1.responsive
  rcases isOpened.isOpen with ⟨tunerType, blogV4, demod, bus, _, _, _, opens⟩
  have software := openFound_software opens
  have sameFreq : opened.freq = 0 :=
    congrArg (fun device : Device Unit => device.freq) software
  have sameCorr : opened.corr = 0 :=
    congrArg (fun device : Device Unit => device.corr) software
  refine ⟨⟨responsive, sameFreq, ?_, rfl⟩, sameCorr⟩
  simp only [openFound, yields_bind, yields_get, yields_pure] at opens
  rcases opens with
    ⟨_, written, writes, _, _, ⟨rfl, rfl⟩, _, initialised, inits, _, closed,
      turnedOff, _, rfl⟩
  have closedSame : closed.resting = initialised.resting :=
    setI2cRepeater_resting false turnedOff
  have closedXtal :
      closed.hardware.tuner.environment.xtal =
        initialised.hardware.tuner.environment.xtal :=
    congrArg (fun resting => resting.2.1.xtal) closedSame
  have closedClock : closed.tunerClock = initialised.tunerClock :=
    Device.tunerClock_of_clocks
      (congrArg (fun resting => resting.2.2.2) closedSame)
  simp only [onHardware, onTuner, yields_onPart] at inits
  rcases inits with ⟨_, ⟨tuner, inits, rfl⟩, rfl⟩
  have told : tuner.xtal = written.tunerClock := initTuner_xtal inits
  exact (closedXtal.trans told).trans closedClock.symm

/-- Resampler and tuner are corrected when the correction is possible. -/
theorem Device.AtRest.corrected_iff
    {device : Device Stick}
    (atRest : device.AtRest)
    (recorded : device.Recorded) :
    device.Corrected ↔ Correctable device.tunXtal device.corr := by
  have shown :
      device.hardware.demod.correction =
        (resamplerCorrection device.corr).bmod (2 ^ 14) := by
    rw [← correctionBytes_toInt, ← recorded]
    rfl
  have resampler :
      device.hardware.demod.correction = resamplerCorrection device.corr ↔
        -488 ≤ device.corr ∧ device.corr ≤ 488 := by
    rw [shown, bmod_eq_iff_representable, representable_iff]
  have bound := device.tunXtal.toNat_lt
  have nonneg :
      -488 ≤ device.corr →
      0 ≤ (device.tunXtal.toNat : Int) * (1000000 + device.corr) :=
    fun small => Int.mul_nonneg (by omega) (by omega)
  constructor
  · intro corrected
    refine ⟨resampler.mp corrected.resampler, ?_⟩
    rw [← corrected.tuner]
    have := device.hardware.tuner.xtal.toNat_lt
    omega
  · rintro ⟨small, fits⟩
    refine ⟨resampler.mpr small, ?_⟩
    rw [atRest.xtal]
    exact applyPpmCorr_toNat (nonneg small.1) fits

/-- Clocks that are not corrected are possible. -/
theorem correctable_zero
    (tunXtal : UInt32) :
    Correctable tunXtal 0 := by
  have bound := tunXtal.toNat_lt
  unfold Correctable
  omega

end Steps

section Runs

variable {opened : Device Stick} {clockings : List Clocking}
  {device : Device Stick}

/-- A run of the calls keeps the device at rest, and records what it accepts. -/
theorem run_clocked
    (isOpened : Opened opened)
    (reached : run Device.clock opened clockings = some device) :
    device.AtRest ∧
      (AcceptedOne opened clockings → device.Recorded) ∧
        (¬ AcceptedOne opened clockings → device.corr = 0) := by
  have history :=
    invariant_history
      (fun clockings device =>
        run Device.clock opened clockings = some device ∧
          device.AtRest ∧
            (AcceptedOne opened clockings → device.Recorded) ∧
              (¬ AcceptedOne opened clockings → device.corr = 0))
      ⟨rfl, isOpened.atRest.1,
        fun accepted => absurd accepted (not_someStep_nil _ _),
        fun _ => isOpened.atRest.2⟩
      (by
        intro earlier before clocking after holds taken
        rcases holds with ⟨ran, atRest, recorded, uncorrected⟩
        have clocked := clock_clocked atRest taken
        have accepted :
            AcceptedOne opened (earlier ++ [clocking]) ↔
              AcceptedOne opened earlier ∨ before.Accepts clocking :=
          someStep_concat_iff ran taken
        rw [accepted]
        refine ⟨run_concat_eq_some.mpr ⟨before, ran, taken⟩, clocked.atRest,
          ?_, ?_⟩
        · intro some
          exact clocked.recorded (some.imp_left recorded)
        · intro none
          rw [clocked.unchanged (fun now => none (Or.inr now))]
          exact uncorrected (fun before => none (Or.inl before)))
      reached
  exact history.2

/-- The clocks stay possible exactly as long as every call suits. -/
theorem correctable_iff_suits
    (isOpened : Opened opened)
    (clockings : List Clocking) :
    EveryState Device.clock
        (fun device => Correctable device.tunXtal device.corr)
        opened clockings ↔
      EveryStep Device.clock Device.Suits opened clockings := by
  refine everyState_iff_everyStep
    (fun atRest taken => (clock_clocked atRest taken).atRest)
    (fun atRest correctable taken =>
      (clock_clocked atRest taken).suits correctable)
    isOpened.atRest.1 ?_ clockings
  rw [isOpened.atRest.2]
  exact correctable_zero _

end Runs

/--
Through every run of the calls that set clocks and rate, from an opened device:
once a correction was accepted, resampler and tuner are corrected by what the
library stores, and no correction that the resampler does not hold is reported
as successful, exactly when every call suits.
-/
theorem corrections_exact_iff
    {opened : Device Stick}
    (isOpened : Opened opened)
    (clockings : List Clocking) :
    (∀ earlier later device,
        clockings = earlier ++ later →
        run Device.clock opened earlier = some device →
        AcceptedOne opened earlier →
        device.Corrected) ∧
      EveryStep Device.clock
        (fun device clocking =>
          ∀ ppm,
            clocking = .freqCorrection ppm →
            ¬ Representable ppm →
            ¬ device.Accepts clocking)
        opened clockings ↔
      EveryStep Device.clock Device.Suits opened clockings := by
  rw [← correctable_iff_suits isOpened]
  constructor
  · rintro ⟨corrected, _⟩ earlier later device split reached
    rcases run_clocked isOpened reached with ⟨atRest, recorded, uncorrected⟩
    by_cases accepted : AcceptedOne opened earlier
    · exact (atRest.corrected_iff (recorded accepted)).mp
        (corrected earlier later device split reached accepted)
    · rw [uncorrected accepted]
      exact correctable_zero _
  · intro correctable
    constructor
    · intro earlier later device split reached accepted
      rcases run_clocked isOpened reached with ⟨atRest, recorded, _⟩
      exact (atRest.corrected_iff (recorded accepted)).mpr
        (correctable earlier later device split reached)
    · intro earlier clocking later before after split reached taken ppm isPpm
        tooLarge accepted
      have atRest := (run_clocked isOpened reached).1
      have ranAfter :
          run Device.clock opened (earlier ++ [clocking]) = some after :=
        run_concat_eq_some.mpr ⟨before, reached, taken⟩
      have possible : Correctable after.tunXtal after.corr :=
        correctable (earlier ++ [clocking]) later after
          (by rw [split, List.append_assoc]; rfl) ranAfter
      rw [(clock_clocked atRest taken).corr ppm isPpm accepted] at possible
      exact tooLarge ((representable_iff ppm).mpr possible.1)

/-- There is an opened R820T that a correction can be set on. -/
theorem exists_opened_corrected
    (ppm : Int)
    {final : Device Stick}
    (yields :
      Yields (openedAndSet (.freqCorrection ppm)) foundR820t 0 final) :
    ∃ opened,
      Opened opened ∧
        opened.clock (.freqCorrection ppm) = some final := by
  rcases openedAndSet_runs yields with ⟨opened, isOpened, _, reached⟩
  rw [run_cons] at reached
  cases taken : opened.step (.freqCorrection ppm) with
  | none =>
      rw [taken] at reached
      cases reached
  | some next =>
      rw [taken] at reached
      cases reached
      exact ⟨opened, isOpened, taken⟩

/-- A correction of 50 ppm, and 2.048 MHz. -/
theorem corrections_exact_iff_small :
    ∃ opened,
      (∀ earlier later device,
          [Clocking.freqCorrection 50, .sampleRate 2048000] =
            earlier ++ later →
          run Device.clock opened earlier = some device →
          AcceptedOne opened earlier →
          device.Corrected) ∧
        EveryStep Device.clock
          (fun device clocking =>
            ∀ ppm,
              clocking = .freqCorrection ppm →
              ¬ Representable ppm →
              ¬ device.Accepts clocking)
          opened [.freqCorrection 50, .sampleRate 2048000] ↔
        EveryStep Device.clock Device.Suits opened
          [.freqCorrection 50, .sampleRate 2048000] := by
  have computed :
      ∃ answer final,
        Yields (openedAndSet (.freqCorrection 50)) foundR820t answer final ∧
          answer = 0 :=
    exists_yields (fun answer (_ : Device Stick) => answer)
      (by decide +kernel)
  rcases computed with ⟨answer, final, yields, rfl⟩
  rcases exists_opened_corrected 50 yields with ⟨opened, isOpened, _⟩
  exact ⟨opened, corrections_exact_iff isOpened _⟩

/--
A correction of 489 ppm is reported as successful, and the resampler shows 8180
for -8204.
-/
theorem corrections_not_exact :
    ¬ ∀ opened,
      Opened opened →
      ∀ clockings,
        (∀ earlier later device,
            clockings = earlier ++ later →
            run Device.clock opened earlier = some device →
            AcceptedOne opened earlier →
            device.Corrected) ∧
          EveryStep Device.clock
            (fun device clocking =>
              ∀ ppm,
                clocking = .freqCorrection ppm →
                ¬ Representable ppm →
                ¬ device.Accepts clocking)
            opened clockings := by
  intro exact
  have computed :
      ∃ answer final,
        Yields (openedAndSet (.freqCorrection 489)) foundR820t answer final ∧
          (answer, final.hardware.demod.correction,
              resamplerCorrection final.corr) =
            (0, 8180, -8204) :=
    exists_yields
      (fun answer (final : Device Stick) =>
        (answer, final.hardware.demod.correction,
          resamplerCorrection final.corr))
      (by decide +kernel)
  rcases computed with ⟨answer, final, yields, seen⟩
  simp only [Prod.mk.injEq] at seen
  rcases seen with ⟨rfl, shown, asked⟩
  rcases exists_opened_corrected 489 yields with ⟨opened, isOpened, taken⟩
  rcases Device.step_eq_some.mp taken with ⟨answer, sets⟩
  have accepted : opened.Accepts (.freqCorrection 489) := by
    have uncorrected : opened.clocks.corr ≠ 489 := by
      have isZero : opened.clocks.corr = 0 := isOpened.atRest.2
      rw [isZero]
      decide
    rcases setFreqCorrection_rests isOpened.atRest.1 sets with
      ⟨isSet, _⟩ | ⟨_, rfl, _⟩
    · exact absurd isSet uncorrected
    · exact ⟨489, final, rfl, sets⟩
  have reached :
      run Device.clock opened [.freqCorrection 489] = some final :=
    run_cons_of_step taken rfl
  have corrected :=
    (exact opened isOpened [.freqCorrection 489]).1 _ [] final
      (List.append_nil _).symm reached
      ⟨[], _, [], opened, final, rfl, rfl, taken, accepted⟩
  have same := corrected.resampler
  rw [shown, asked] at same
  cases same

end LibRtlSdr.RtlSdr
