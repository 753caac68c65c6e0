import LibRtlSdr.RtlSdrIfTracking
import Mathlib.Data.Nat.Bitwise

namespace LibRtlSdr.RtlSdr

open DriverProgram PartialRun

/-!
# The sample rate

`rtlsdr_set_sample_rate` on any board.  The ratio for the resampler has 28
bits, and its top bit stands for one more.  The rates are checked against
windows that fit a clock of 28.8 MHz, and not the clock that is set.
-/

section Ratio

variable {rtlXtal sampRate : UInt32}

/-- `real_rsamp_ratio`. -/
def realRsampRatio (ratio : UInt32) : UInt32 :=
  ratio ||| (ratio &&& 0x08000000) <<< 1

/-- What is written to the registers 0x9f and 0xa1, as one number. -/
def writtenRatio (ratio : UInt32) : Nat :=
  (ratio >>> 16).toUInt16.toNat * 2 ^ 16 + (ratio &&& 0xffff).toUInt16.toNat

/-- A ratio of 28 bits whose top bit stands for the next one too. -/
def extendedRatio (written : Nat) : Nat :=
  written + if 2 ^ 27 ≤ written then 2 ^ 28 else 0

/-- The ratio of clock and rate in steps of 2^-22, without its two lower bits. -/
def exactRatio (rtlXtal sampRate : Nat) : Nat :=
  rtlXtal * 2 ^ 22 / sampRate / 4 * 4

/-- The clock is three to four, or no, units of 32 rates: the ratios that 28 bits stand for. -/
def RateFits (rtlXtal sampRate : Nat) : Prop :=
  rtlXtal < 32 * sampRate ∨
    (96 * sampRate ≤ rtlXtal ∧ rtlXtal < 128 * sampRate)

instance (rtlXtal sampRate : Nat) : Decidable (RateFits rtlXtal sampRate) :=
  inferInstanceAs (Decidable (_ ∨ _))

/-- The mask keeps 26 of 28 bits. -/
theorem and_ratioMask
    (value : Nat) :
    value &&& 0x0ffffffc = value % 2 ^ 28 / 4 * 4 := by
  have shifted :
      ∀ mask : Nat, value &&& mask <<< 2 = (value >>> 2 &&& mask) <<< 2 := by
    intro mask
    apply Nat.eq_of_testBit_eq
    intro place
    by_cases high : 2 ≤ place
    · simp [high, Nat.testBit_shiftLeft, Nat.testBit_shiftRight]
    · simp [high, Nat.testBit_shiftLeft]
  change value &&& (2 ^ 26 - 1) <<< 2 = _
  rw [shifted, Nat.and_two_pow_sub_one_eq_mod, Nat.shiftLeft_eq,
    Nat.shiftRight_eq_div_pow]
  omega

theorem rsampRatio_toNat :
    (rsampRatio rtlXtal sampRate).toNat =
      rtlXtal.toNat * 2 ^ 22 / sampRate.toNat % 2 ^ 28 / 4 * 4 := by
  unfold rsampRatio
  rw [UInt32.toNat_and, UInt32.toNat_ofNat']
  change _ &&& 0x0ffffffc = _
  rw [and_ratioMask]
  omega

/-- The bit that is copied is worth twice as much. -/
theorem realRsampRatio_toNat
    {ratio : UInt32}
    (small : ratio.toNat < 2 ^ 28) :
    (realRsampRatio ratio).toNat = extendedRatio ratio.toNat := by
  have copied :
      ((ratio &&& 0x08000000) <<< 1).toNat =
        if 2 ^ 27 ≤ ratio.toNat then 2 ^ 28 * 1 else 0 := by
    rw [UInt32.toNat_shiftLeft, UInt32.toNat_and]
    change (ratio.toNat &&& 2 ^ 27) <<< 1 % 2 ^ 32 = _
    rw [Nat.and_two_pow, Nat.testBit_eq_decide_div_mod_eq, Nat.shiftLeft_eq]
    by_cases large : 2 ^ 27 ≤ ratio.toNat
    · have isOne : ratio.toNat / 2 ^ 27 % 2 = 1 := by
        omega
      rw [if_pos large, decide_eq_true isOne]
      decide
    · have isZero : ¬ ratio.toNat / 2 ^ 27 % 2 = 1 := by
        omega
      rw [if_neg large, decide_eq_false isZero]
      decide
  unfold realRsampRatio extendedRatio
  rw [UInt32.toNat_or, copied]
  split
  · rw [Nat.or_comm, ← Nat.two_pow_add_eq_or_of_lt small]
    omega
  · exact Nat.or_zero _

/-- The two registers hold the ratio. -/
theorem writtenRatio_eq
    (ratio : UInt32) :
    writtenRatio ratio = ratio.toNat := by
  have bound := ratio.toNat_lt
  have low : ∀ value : Nat, value &&& 65535 = value % 65536 :=
    fun value => Nat.and_two_pow_sub_one_eq_mod value 16
  unfold writtenRatio
  simp [low, Nat.shiftRight_eq_div_pow]
  omega

/-- The ratios whose top bits the 28 bits stand for. -/
theorem rateFits_iff
    {clock rate : Nat}
    (positive : 0 < rate) :
    RateFits clock rate ↔
      clock * 2 ^ 22 / rate < 2 ^ 27 ∨
        (3 * 2 ^ 27 ≤ clock * 2 ^ 22 / rate ∧
          clock * 2 ^ 22 / rate < 2 ^ 29) := by
  unfold RateFits
  rw [Nat.div_lt_iff_lt_mul positive, Nat.div_lt_iff_lt_mul positive,
    Nat.le_div_iff_mul_le positive]
  omega

/-- The real ratio is the exact one when the 28 bits stand for it. -/
theorem extendedRatio_eq_iff
    (positive : 0 < sampRate.toNat) :
    extendedRatio (rsampRatio rtlXtal sampRate).toNat =
        exactRatio rtlXtal.toNat sampRate.toNat ↔
      RateFits rtlXtal.toNat sampRate.toNat := by
  rw [rateFits_iff positive, rsampRatio_toNat]
  unfold extendedRatio exactRatio
  generalize rtlXtal.toNat * 2 ^ 22 / sampRate.toNat = quotient
  by_cases large : 2 ^ 27 ≤ quotient % 2 ^ 28 / 4 * 4
  · rw [if_pos large]
    omega
  · rw [if_neg large]
    omega

/-- The rate that the exact ratio stands for is the one it was computed of. -/
theorem div_exactRatio
    {clock rate : Nat}
    (positive : 0 < rate)
    (clockLow : 28799000 ≤ clock)
    (rateHigh : rate ≤ 3200000) :
    clock * 2 ^ 22 / exactRatio clock rate = rate := by
  have large : 4 * rate + 3 ≤ clock * 2 ^ 22 / rate := by
    apply (Nat.le_div_iff_mul_le positive).mpr
    calc
      (4 * rate + 3) * rate ≤ (4 * 3200000 + 3) * 3200000 :=
        Nat.mul_le_mul (by omega) rateHigh
      _ ≤ clock * 2 ^ 22 := by omega
  have below : clock * 2 ^ 22 / rate * rate ≤ clock * 2 ^ 22 :=
    Nat.div_mul_le_self _ _
  have above : clock * 2 ^ 22 < rate * (clock * 2 ^ 22 / rate + 1) :=
    Nat.lt_mul_div_succ _ positive
  unfold exactRatio
  generalize clock * 2 ^ 22 / rate = quotient at *
  apply Nat.div_eq_of_lt_le
  · calc
      rate * (quotient / 4 * 4) ≤ rate * quotient :=
        Nat.mul_le_mul_left _ (by omega)
      _ = quotient * rate := Nat.mul_comm _ _
      _ ≤ clock * 2 ^ 22 := below
  · calc
      clock * 2 ^ 22 < rate * (quotient + 1) := above
      _ ≤ rate * (quotient / 4 * 4 + 4) :=
        Nat.mul_le_mul_left _ (by omega)
      _ = rate * (quotient / 4 * 4) + rate * 4 := Nat.mul_add _ _ _
      _ ≤ rate * (quotient / 4 * 4) + quotient / 4 * 4 :=
        Nat.add_le_add_left (by omega) _
      _ = (rate + 1) * (quotient / 4 * 4) := (Nat.succ_mul _ _).symm

end Ratio

/-- The entry `set_bw` of a tuner's interface. -/
inductive BandwidthSetter (Hardware : Type) where
  /-- A call into the driver of an E4000, FC0012, FC0013 or FC2580. -/
  | driver (setBw : Int → Program Hardware Int32)
  /-- `r820t_set_bw`, over `r82xx_set_bandwidth`. -/
  | r820t (setBandwidth : Int → Program Hardware (Except Int32 UInt32))

/-- What the library drives when it sets the sample rate. -/
structure Equipment (Hardware : Type) where
  board : Board Hardware
  setBw : Option (BandwidthSetter Hardware)
  /-- `rtlsdr_set_bias_tee`. -/
  setBiasTee : Bool → Program Hardware Int32

namespace Equipment

variable {Hardware : Type} (equipment : Equipment Hardware)

/-- A call of `set_bw`. -/
def callSetBw :
    BandwidthSetter Hardware → Int → Program (Device Hardware) Int32
  | .driver setBw, bw => onHardware (setBw bw)
  | .r820t setBandwidth, bw => do
      match ← onHardware (setBandwidth bw) with
      | .error code => return code
      | .ok intFreq =>
          let answer ← setIfFreq equipment.board intFreq
          if answer ≠ 0 then
            return answer
          else
            let device ← get
            setCenterFreq equipment.board device.freq

/-- Call the tuner's `set_bw`, if it has one, through the repeater. -/
def tunerSetBw
    (width : Device Hardware → Int) :
    Program (Device Hardware) Unit := do
  match equipment.setBw with
  | none => return ()
  | some setBw =>
      setI2cRepeater equipment.board true
      let device ← get
      let _ ← equipment.callSetBw setBw (width device)
      setI2cRepeater equipment.board false

/-- The width for which `rtlsdr_set_offset_tuning` sets the filter. -/
def offsetWidth (on : Bool) (device : Device Hardware) : Int :=
  if on then asInt (2 * device.offsFreq) else device.widthFor device.bw

/-- `rtlsdr_set_offset_tuning`. -/
def setOffsetTuning (on : Bool) : Program (Device Hardware) Int32 := do
  let device ← get
  if device.tunerType = .r820t ∨ device.tunerType = .r828d then
    let _ ← onHardware (equipment.setBiasTee on)
    return -2
  else if device.directSampling ≠ 0 then
    return -3
  else
    -- based on keenerds 1/f noise measurements
    let offsFreq := if on then device.rate / 2 * 170 / 100 else 0
    modify fun device => { device with offsFreq := offsFreq }
    let answer ← setIfFreq equipment.board offsFreq
    equipment.tunerSetBw (offsetWidth on)
    let device ← get
    if device.offsFreq < device.freq then
      let retuned ← setCenterFreq equipment.board device.freq
      return answer ||| retuned
    else
      return answer

/-- `rtlsdr_set_sample_freq_correction`. -/
def setSampleFreqCorrection (ppm : Int) : Program (Device Hardware) Int32 :=
  let offs := BitVec.ofInt 16 ((-ppm * 2 ^ 24).tdiv 1000000)
  orAll
    [demodWriteReg equipment.board 1 0x3f (UInt16.ofBitVec (offs &&& 0xff)) 1,
      demodWriteReg equipment.board 1 0x3e
        (UInt16.ofBitVec (offs >>> 8 &&& 0x3f)) 1]

/-- `rtlsdr_set_sample_rate`. -/
def setSampleRate (sampRate : UInt32) : Program (Device Hardware) Int32 := do
  if ¬ SupportedRate sampRate then
    return -22
  else
    let device ← get
    let ratio := rsampRatio device.rtlXtal sampRate
    modify fun device => { device with rate := realRate device.rtlXtal ratio }
    equipment.tunerSetBw fun device => device.widthFor device.bw
    let device ← get
    let answer ← orAll
      [demodWriteReg equipment.board 1 0x9f (ratio >>> 16).toUInt16 2,
        demodWriteReg equipment.board 1 0xa1 (ratio &&& 0xffff).toUInt16 2,
        equipment.setSampleFreqCorrection device.corr,
        -- reset demod (bit 3, soft_rst)
        demodWriteReg equipment.board 1 0x01 0x14 1,
        demodWriteReg equipment.board 1 0x01 0x10 1]
    -- recalculate offset frequency if offset tuning is enabled
    let device ← get
    if device.offsFreq ≠ 0 then
      let _ ← equipment.setOffsetTuning true
      return answer
    else
      return answer

end Equipment

section Frames

variable {Hardware : Type}

/-- The device without what a tuning changes of it. -/
def Device.untuned (device : Device Hardware) : Device Unit :=
  { device.software with freq := 0, directSampling := 0 }

/-- What leaves the fields of the library alone leaves these alone. -/
theorem untuned_of_software
    {Value : Type}
    {program : Program (Device Hardware) Value}
    (kept : Keeps Device.software program) :
    Keeps Device.untuned program := by
  intro before value after yields
  exact congrArg
    (fun device : Device Unit => { device with freq := 0, directSampling := 0 })
    (kept yields)

/-- A tuning changes the frequency and the sampling mode only. -/
theorem setCenterFreqAt_untuned
    (board : Board Hardware)
    (nested : Nat)
    (freq : UInt32) :
    Keeps Device.untuned (setCenterFreqAt board nested freq) := by
  refine setCenterFreqAt_frame (fun _ _ => rfl) (fun _ _ _ => rfl)
    (fun freq => untuned_of_software (tune_keeps board freq)) ?_ nested freq
  intro tunerType on operation member
  exact untuned_of_software
    (switchOperations_keep board tunerType on operation member)

namespace Equipment

variable (equipment : Equipment Hardware)

theorem demodWriteReg_untuned
    (page addr : Nat)
    (val : UInt16)
    (len : Nat) :
    Keeps Device.untuned (demodWriteReg equipment.board page addr val len) :=
  untuned_of_software (onHardware_keeps _)

theorem setI2cRepeater_untuned
    (on : Bool) :
    Keeps Device.untuned (setI2cRepeater equipment.board on) :=
  untuned_of_software (setI2cRepeater_keeps equipment.board on)

theorem callSetBw_untuned
    (setBw : BandwidthSetter Hardware)
    (bw : Int) :
    Keeps Device.untuned (equipment.callSetBw setBw bw) := by
  cases setBw with
  | driver setBw =>
      exact untuned_of_software (onHardware_keeps _)
  | r820t setBandwidth =>
      apply Keeps.bind (untuned_of_software (onHardware_keeps _))
      intro outcome
      cases outcome with
      | error code =>
          exact Keeps.pure _
      | ok intFreq =>
          apply Keeps.bind
            (untuned_of_software (setIfFreq_keeps equipment.board intFreq))
          intro answer
          exact Keeps.ite (Keeps.pure _)
            (Keeps.get.bind fun _ => setCenterFreqAt_untuned _ _ _)

theorem tunerSetBw_untuned
    (width : Device Hardware → Int) :
    Keeps Device.untuned (equipment.tunerSetBw width) := by
  unfold tunerSetBw
  cases equipment.setBw with
  | none =>
      exact Keeps.pure _
  | some setBw =>
      exact (equipment.setI2cRepeater_untuned true).bind fun _ =>
        Keeps.get.bind fun _ =>
          (equipment.callSetBw_untuned setBw _).bind fun _ =>
            equipment.setI2cRepeater_untuned false

theorem setSampleFreqCorrection_untuned
    (ppm : Int) :
    Keeps Device.untuned (equipment.setSampleFreqCorrection ppm) := by
  apply Keeps.orAll
  intro operation member
  simp only [List.mem_cons, List.not_mem_nil, or_false] at member
  rcases member with rfl | rfl <;>
    exact equipment.demodWriteReg_untuned _ _ _ _

/-- What a tuning leaves alone includes the rate. -/
theorem rate_of_untuned
    {Value : Type}
    {program : Program (Device Hardware) Value}
    (kept : Keeps Device.untuned program) :
    Keeps Device.rate program := by
  intro before value after yields
  exact congrArg (fun device : Device Unit => device.rate) (kept yields)

/-- Offset tuning leaves the rate alone. -/
theorem setOffsetTuning_rate
    (on : Bool) :
    Keeps Device.rate (equipment.setOffsetTuning on) := by
  refine Keeps.get.bind fun device => Keeps.ite ?_ (Keeps.ite ?_ ?_)
  · exact (rate_of_untuned (untuned_of_software (onHardware_keeps _))).bind
      fun _ => Keeps.pure _
  · exact Keeps.pure _
  · refine Keeps.bind (Keeps.modify fun _ => rfl) fun _ =>
      Keeps.bind (rate_of_untuned (untuned_of_software (setIfFreq_keeps _ _)))
        fun _ =>
          Keeps.bind (rate_of_untuned (equipment.tunerSetBw_untuned _))
            fun _ => Keeps.get.bind fun _ => Keeps.ite ?_ (Keeps.pure _)
    exact (rate_of_untuned (setCenterFreqAt_untuned _ _ _)).bind
      fun _ => Keeps.pure _

/-- The register writes of `rtlsdr_set_sample_rate`. -/
theorem rateWrites_untuned
    (ratio : UInt32)
    (ppm : Int) :
    Keeps Device.untuned
      (orAll
        [demodWriteReg equipment.board 1 0x9f (ratio >>> 16).toUInt16 2,
          demodWriteReg equipment.board 1 0xa1 (ratio &&& 0xffff).toUInt16 2,
          equipment.setSampleFreqCorrection ppm,
          demodWriteReg equipment.board 1 0x01 0x14 1,
          demodWriteReg equipment.board 1 0x01 0x10 1]) := by
  apply Keeps.orAll
  intro operation member
  simp only [List.mem_cons, List.not_mem_nil, or_false] at member
  rcases member with rfl | rfl | rfl | rfl | rfl
  · exact equipment.demodWriteReg_untuned _ _ _ _
  · exact equipment.demodWriteReg_untuned _ _ _ _
  · exact equipment.setSampleFreqCorrection_untuned _
  · exact equipment.demodWriteReg_untuned _ _ _ _
  · exact equipment.demodWriteReg_untuned _ _ _ _

/-- The rate that a call leaves is the one that it computes. -/
theorem setSampleRate_rate
    {sampRate : UInt32}
    (supported : SupportedRate sampRate)
    {before after : Device Hardware}
    {answer : Int32}
    (yields :
      Yields (equipment.setSampleRate sampRate) before answer after) :
    after.rate =
      realRate before.rtlXtal (rsampRatio before.rtlXtal sampRate) := by
  unfold setSampleRate at yields
  rw [if_neg (not_not_intro supported),
    yields_bind_of (yields_get.mpr ⟨rfl, rfl⟩)] at yields
  rcases yields_bind.mp yields with ⟨_, rated, rates, yields⟩
  rcases yields_bind.mp yields with ⟨_, set, sets, yields⟩
  rcases yields_bind.mp yields with ⟨_, _, gets, yields⟩
  rcases yields_get.mp gets with ⟨rfl, rfl⟩
  rcases yields_bind.mp yields with ⟨written, wrote, writes, yields⟩
  rcases yields_bind.mp yields with ⟨_, _, gets, yields⟩
  rcases yields_get.mp gets with ⟨rfl, rfl⟩
  have last : after.rate = wrote.rate := by
    split at yields
    · rcases yields_bind.mp yields with ⟨_, _, offsets, ends⟩
      rw [← (yields_pure.mp ends).2]
      exact equipment.setOffsetTuning_rate true offsets
    · rw [(yields_pure.mp yields).2]
  have writing : wrote.rate = set.rate :=
    rate_of_untuned (equipment.rateWrites_untuned _ _) writes
  have setting : set.rate = rated.rate :=
    rate_of_untuned (equipment.tunerSetBw_untuned _) sets
  rw [last, writing, setting, ← yields_modify.mp rates]

end Equipment

end Frames

/-- The equipment of a stick with an R82xx tuner. -/
def r82xxEquipment (setBiasTee : Bool → Program Stick Int32) : Equipment Stick where
  board := r82xxBoard
  setBw := some (.r820t fun bw => onTuner (R82xx.setBandwidth bw).run)
  setBiasTee := setBiasTee

/-- On an R82xx, whose offset frequency is never set, the general function is the special one. -/
theorem setSampleRate_r82xx
    (setBiasTee : Bool → Program Stick Int32)
    (sampRate : UInt32)
    {device : Device Stick}
    (noOffset : device.offsFreq = 0) :
    ((r82xxEquipment setBiasTee).setSampleRate sampRate).run device =
      (setSampleRate sampRate).run device := by
  let equipment := r82xxEquipment setBiasTee
  have offsFreq_of :
      ∀ {before after : Device Stick},
        after.untuned = before.untuned →
        after.offsFreq = before.offsFreq :=
    fun same => congrArg (fun device : Device Unit => device.offsFreq) same
  unfold Equipment.setSampleRate setSampleRate
  split
  · rfl
  apply run_bind_congr
  intro _ _ gets
  rcases yields_get.mp gets with ⟨rfl, rfl⟩
  apply run_bind_congr
  intro _ rated rates
  have ratedOffset : rated.offsFreq = 0 := by
    rw [← yields_modify.mp rates]
    exact noOffset
  have tuning :
      ∀ next : Program (Device Stick) Int32,
        (do
          equipment.tunerSetBw fun device => device.widthFor device.bw
          next) = (do
          setI2cRepeater r82xxBoard true
          let device ← get
          let _ ← setBw (device.widthFor device.bw)
          setI2cRepeater r82xxBoard false
          next) := by
    intro next
    change ((do
      setI2cRepeater r82xxBoard true
      let device ← get
      let _ ← setBw (device.widthFor device.bw)
      setI2cRepeater r82xxBoard false) >>= fun _ => next) = _
    simp only [bind_assoc]
  rw [← tuning]
  apply run_bind_congr
  intro _ set sets
  have setOffset : set.offsFreq = 0 :=
    (offsFreq_of (equipment.tunerSetBw_untuned _ sets)).trans ratedOffset
  apply run_bind_congr
  intro _ _ gets
  rcases yields_get.mp gets with ⟨rfl, rfl⟩
  refine Eq.trans ?_
    (congrArg (fun program => StateT.run program set) (bind_pure _))
  apply run_bind_congr
  intro answer wrote writes
  have wroteOffset : wrote.offsFreq = 0 :=
    (offsFreq_of (equipment.rateWrites_untuned _ _ writes)).trans setOffset
  rw [StateT.run_bind]
  change (if wrote.offsFreq ≠ 0 then _ else pure answer : Program _ _).run wrote = _
  rw [if_neg (not_not_intro wroteOffset)]

section Result

variable {Hardware : Type}

/-- What `rtlsdr_set_sample_rate` is to achieve: the resampler runs at the requested rate. -/
structure RunsAt
    (rtlXtal sampRate : UInt32)
    (device : Device Hardware) : Prop where
  ratio :
    (realRsampRatio (rsampRatio rtlXtal sampRate)).toNat =
      exactRatio rtlXtal.toNat sampRate.toNat
  written :
    extendedRatio (writtenRatio (rsampRatio rtlXtal sampRate)) =
      exactRatio rtlXtal.toNat sampRate.toNat
  rate : device.rate = sampRate

/-- A supported rate lies within the windows. -/
theorem SupportedRate.bounds
    {sampRate : UInt32}
    (supported : SupportedRate sampRate) :
    0 < sampRate.toNat ∧ sampRate.toNat ≤ 3200000 := by
  unfold SupportedRate at supported
  simp only [UInt32.le_iff_toNat_le, UInt32.lt_iff_toNat_lt] at supported
  simp at supported
  omega

/-- For a clock and a rate that are accepted, the resampler runs at the rate if they fit. -/
theorem setSampleRate_runsAt_iff
    {equipment : Equipment Hardware}
    {sampRate : UInt32}
    {before after : Device Hardware}
    {answer : Int32}
    (isSet : 0 < before.rtlXtal)
    (accepted : ¬ RefusedXtal before.rtlXtal)
    (supported : SupportedRate sampRate)
    (yields :
      Yields (equipment.setSampleRate sampRate) before answer after) :
    RunsAt before.rtlXtal sampRate after ↔
      RateFits before.rtlXtal.toNat sampRate.toNat := by
  rcases supported.bounds with ⟨positive, high⟩
  have low : 28799000 ≤ before.rtlXtal.toNat := by
    by_contra below
    apply accepted
    refine ⟨isSet, Or.inl ?_⟩
    rw [UInt32.lt_iff_toNat_lt]
    exact Nat.lt_of_not_le below
  have ratioSmall :
      (rsampRatio before.rtlXtal sampRate).toNat < 2 ^ 28 := by
    rw [rsampRatio_toNat]
    omega
  have isReal := realRsampRatio_toNat ratioSmall
  constructor
  · intro runs
    apply (extendedRatio_eq_iff positive).mp
    rw [← isReal]
    exact runs.ratio
  · intro fits
    have exact := (extendedRatio_eq_iff positive).mpr fits
    refine ⟨isReal.trans exact, ?_, ?_⟩
    · rw [writtenRatio_eq]
      exact exact
    · rw [equipment.setSampleRate_rate supported yields]
      change UInt32.ofNat
        (before.rtlXtal.toNat * 2 ^ 22 /
          (realRsampRatio (rsampRatio before.rtlXtal sampRate)).toNat) = _
      rw [isReal, exact, div_exactRatio positive low high]
      exact UInt32.ofNat_toNat

end Result

/--
`rtlsdr_open` on an answering stick with an R820T, another RTL clock and a sample
rate; it returns the two answers that matter and the device between the calls.
-/
def openedAndRated
    (rtlFreq sampRate : UInt32) :
    Program (Device Stick) (Int32 × Int32 × Device Stick) := do
  let opened ← openFound
  let _ ← setXtalFreq rtlFreq 28800000
  let device ← get
  let answer ← setSampleRate sampRate
  return (opened, answer, device)

/-- Its last call runs from an opened device with that clock. -/
theorem openedAndRated_runs
    {rtlFreq sampRate : UInt32}
    {answer : Int32}
    {before after : Device Stick}
    (yields :
      Yields (openedAndRated rtlFreq sampRate) foundR820t (0, answer, before)
        after)
    (noOffset : before.offsFreq = 0)
    (setBiasTee : Bool → Program Stick Int32) :
    ∃ opened,
      Opened opened ∧
        run Device.step opened [.xtalFreq rtlFreq 28800000] = some before ∧
        Yields ((r82xxEquipment setBiasTee).setSampleRate sampRate)
          before answer after := by
  simp only [openedAndRated, yields_bind, yields_get, yields_pure,
    Prod.mk.injEq] at yields
  rcases yields with
    ⟨_, opened, opens, _, middle, clocks, _, _, ⟨rfl, rfl⟩, _, _, rates,
      ⟨rfl, rfl, rfl⟩, rfl⟩
  refine ⟨opened, ⟨.r820t, false, answeringDemod, answeringBus, Or.inl rfl,
    fun _ => rfl, ⟨fun _ => rfl, fun _ => rfl⟩, opens⟩,
    run_cons_of_step (Device.step_eq_some.mpr ⟨_, clocks⟩) rfl, ?_⟩
  unfold Yields
  rw [setSampleRate_r82xx setBiasTee sampRate noOffset]
  exact rates

/-- A rate of 2.048 MS/s at 28.8 MHz. -/
theorem setSampleRate_runsAt_iff_common :
    ∃ before after : Device Stick,
      RunsAt before.rtlXtal 2048000 after ↔
        RateFits before.rtlXtal.toNat 2048000 := by
  have computed :
      ∃ answers after,
        Yields (openedAndRated 28800000 2048000) foundR820t answers after ∧
          (answers.1, answers.2.2.rtlXtal, answers.2.2.offsFreq) =
            (0, 28800000, 0) :=
    exists_yields
      (fun (answers : Int32 × Int32 × Device Stick) (_ : Device Stick) =>
        (answers.1, answers.2.2.rtlXtal, answers.2.2.offsFreq))
      (by decide +kernel)
  rcases computed with ⟨⟨opened, answer, before⟩, after, yields, seen⟩
  simp only [Prod.mk.injEq] at seen
  rcases seen with ⟨rfl, clock, noOffset⟩
  rcases openedAndRated_runs yields noOffset fun _ => pure 0 with
    ⟨_, _, _, rates⟩
  have isSet : 0 < before.rtlXtal := by
    rw [clock]
    decide
  have accepted : ¬ RefusedXtal before.rtlXtal := by
    rw [clock]
    decide
  exact ⟨before, after,
    setSampleRate_runsAt_iff isSet accepted (by decide) rates⟩

/--
A rate of 900001 S/s at a clock that is 1 kHz above 28.8 MHz: both are accepted,
and the resampler runs at about a third of the rate.
-/
theorem setSampleRate_not_runsAt :
    ∃ opened before after,
      Opened opened ∧
        run Device.step opened [.xtalFreq 28801000 28800000] = some before ∧
        Yields ((r82xxEquipment fun _ => pure 0).setSampleRate 900001)
          before 0 after ∧
        ¬ RefusedXtal before.rtlXtal ∧
        SupportedRate 900001 ∧
        after.rate = 300007 ∧
        ¬ RunsAt before.rtlXtal 900001 after := by
  have computed :
      ∃ answers after,
        Yields (openedAndRated 28801000 900001) foundR820t answers after ∧
          (answers.1, answers.2.1, answers.2.2.rtlXtal,
              answers.2.2.offsFreq, after.rate) =
            (0, 0, 28801000, 0, 300007) :=
    exists_yields
      (fun (answers : Int32 × Int32 × Device Stick) (after : Device Stick) =>
        (answers.1, answers.2.1, answers.2.2.rtlXtal,
          answers.2.2.offsFreq, after.rate))
      (by decide +kernel)
  rcases computed with ⟨⟨opened, answer, before⟩, after, yields, seen⟩
  simp only [Prod.mk.injEq] at seen
  rcases seen with ⟨rfl, rfl, clock, noOffset, rate⟩
  rcases openedAndRated_runs yields noOffset fun _ => pure 0 with
    ⟨opened, isOpened, reached, rates⟩
  refine ⟨opened, before, after, isOpened, reached, rates, ?_, by decide,
    rate, ?_⟩
  · rw [clock]
    decide
  · intro runs
    have wrong := runs.rate
    rw [rate] at wrong
    cases wrong

end LibRtlSdr.RtlSdr
