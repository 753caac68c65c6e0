import LibRtlSdr.FcDivisions
import LibRtlSdr.NearestMultiples

namespace LibRtlSdr

open DriverProgram ByteChip NearestMultiples

/-!
# The counters of the FC0012 and FC0013

The VCO frequency is counted in steps of half the tuner clock.  The registers 1
and 2 split the count, and what they cannot hold is refused.  Two things get past
the check: a count of 0 or 1, from which a borrow goes below zero, and a product
that has wrapped in its 32 bits.
-/

namespace FcTuner

/-! ## The count of steps -/

section Steps

variable {freq xtalFreqDiv2 : UInt32} {multi : UInt8} {product : UInt64}

/-- The product for the VCO frequency, cut to its 32 bits. -/
theorem fVco_toNat :
    (fVco freq multi).toNat = freq.toNat * multi.toNat % 2 ^ 32 := by
  unfold fVco
  rw [UInt32.toNat_toUInt64, UInt32.toNat_mul, UInt8.toNat_toUInt32]

theorem fVco_lt : (fVco freq multi).toNat < 2 ^ 32 := by
  rw [fVco_toNat]
  exact Nat.mod_lt _ (by decide)

/-- With a clock that is not too slow, the count of steps is rounded from half a step on. -/
theorem xdivFor_toNat
    (small : product.toNat < 2 ^ 32)
    (fast : 2 ^ 17 ≤ xtalFreqDiv2.toNat) :
    (xdivFor product xtalFreqDiv2).toNat =
      roundHalf xtalFreqDiv2.toNat product.toNat := by
  have few : product.toNat / xtalFreqDiv2.toNat < 2 ^ 15 := by
    rw [Nat.div_lt_iff_lt_mul (by omega)]
    omega
  have whole : product.toNat / xtalFreqDiv2.toNat * xtalFreqDiv2.toNat ≤ product.toNat :=
    Nat.div_mul_le_self _ _
  have count :
      (product / xtalFreqDiv2.toUInt64).toUInt16.toNat =
        product.toNat / xtalFreqDiv2.toNat := by
    rw [UInt64.toNat_toUInt16, UInt64.toNat_div, UInt32.toNat_toUInt64]
    exact Nat.mod_eq_of_lt (by omega)
  have multiple :
      (((product / xtalFreqDiv2.toUInt64).toUInt16.toUInt32 *
          xtalFreqDiv2).toUInt64).toNat =
        product.toNat / xtalFreqDiv2.toNat * xtalFreqDiv2.toNat := by
    rw [UInt32.toNat_toUInt64, UInt32.toNat_mul, UInt16.toNat_toUInt32, count]
    exact Nat.mod_eq_of_lt (by omega)
  have rest :
      (product -
          ((product / xtalFreqDiv2.toUInt64).toUInt16.toUInt32 *
            xtalFreqDiv2).toUInt64).toNat =
        product.toNat % xtalFreqDiv2.toNat := by
    rw [UInt64.toNat_sub_of_le _ _ (UInt64.le_iff_toNat_le.mpr (by omega)),
      multiple, Nat.mod_eq_sub_div_mul]
  have half :
      (xtalFreqDiv2 / 2).toUInt64.toNat = xtalFreqDiv2.toNat / 2 := by
    rw [UInt32.toNat_toUInt64, UInt32.toNat_div]
    rfl
  have decided :
      (xtalFreqDiv2 / 2).toUInt64 ≤
          product -
            ((product / xtalFreqDiv2.toUInt64).toUInt16.toUInt32 *
              xtalFreqDiv2).toUInt64 ↔
        xtalFreqDiv2.toNat / 2 ≤ product.toNat % xtalFreqDiv2.toNat := by
    rw [UInt64.le_iff_toNat_le, half, rest]
  unfold xdivFor roundHalf
  dsimp only
  by_cases up : xtalFreqDiv2.toNat / 2 ≤ product.toNat % xtalFreqDiv2.toNat
  · rw [if_pos up, if_pos (decided.mpr up), UInt16.toNat_add, count]
    exact Nat.mod_eq_of_lt (by
      change _ + 1 < 2 ^ 16
      omega)
  · rw [if_neg up, if_neg (fun above => up (decided.mp above))]
    exact count

end Steps

/-! ## The counters -/

/-- The counters of the registers 1 and 2 pass the check. -/
def Passes (xdiv : UInt16) : Prop :=
  ¬ (15 < (cycles xdiv).1 ∨ (cycles xdiv).2 < 0x0b)

instance (xdiv : UInt16) : Decidable (Passes xdiv) :=
  inferInstanceAs (Decidable (¬ _))

/-- What the counters of few steps are: right, wrapped below zero, or refused. -/
theorem cycles_of_few :
    ∀ steps < 500,
      (Passes (UInt16.ofNat steps) ↔
          steps < 2 ∨ 90 ≤ steps ∧ steps ≤ 263) ∧
        (steps < 2 →
          8 * (cycles (UInt16.ofNat steps)).2.toNat +
              (cycles (UInt16.ofNat steps)).1.toNat =
            256 + steps) ∧
        (90 ≤ steps ∧ steps ≤ 263 →
          8 * (cycles (UInt16.ofNat steps)).2.toNat +
                (cycles (UInt16.ofNat steps)).1.toNat =
              steps ∧
            2 ≤ (cycles (UInt16.ofNat steps)).1.toNat ∧
            (cycles (UInt16.ofNat steps)).2.toNat ≤ 31) := by
  decide +kernel

section Counters

variable {xdiv : UInt16}

theorem passes_iff
    (few : xdiv.toNat < 500) :
    Passes xdiv ↔ xdiv.toNat < 2 ∨ 90 ≤ xdiv.toNat ∧ xdiv.toNat ≤ 263 := by
  have cases := (cycles_of_few xdiv.toNat few).1
  rwa [UInt16.ofNat_toNat] at cases

/-- Below 2 steps the borrow goes below zero. -/
theorem cycles_of_borrow
    (few : xdiv.toNat < 2) :
    8 * (cycles xdiv).2.toNat + (cycles xdiv).1.toNat = 256 + xdiv.toNat := by
  have value := (cycles_of_few xdiv.toNat (by omega)).2.1 few
  rwa [UInt16.ofNat_toNat] at value

/-- Counters in their range, for a count of steps. -/
structure Counters (steps reg1 reg2 : Nat) : Prop where
  split : 8 * reg2 + reg1 = steps
  reg1 : 2 ≤ reg1 ∧ reg1 ≤ 15
  reg2 : 11 ≤ reg2 ∧ reg2 ≤ 31

/-- There are counters for 90 to 263 steps. -/
theorem exists_counters_iff
    {steps : Nat} :
    (∃ reg1 reg2, Counters steps reg1 reg2) ↔ 90 ≤ steps ∧ steps ≤ 263 := by
  constructor
  · rintro ⟨reg1, reg2, rfl, small, large⟩
    omega
  · intro range
    by_cases low : steps % 8 < 2
    · exact ⟨steps % 8 + 8, steps / 8 - 1, by omega, by omega, by omega⟩
    · by_cases high : steps < 256
      · exact ⟨steps % 8, steps / 8, by omega, by omega, by omega⟩
      · exact ⟨steps - 248, 31, by omega, by omega, by omega⟩

/-- Such a count is split so. -/
theorem cycles_counters
    (range : 90 ≤ xdiv.toNat ∧ xdiv.toNat ≤ 263) :
    Counters xdiv.toNat (cycles xdiv).1.toNat (cycles xdiv).2.toNat := by
  have few : xdiv.toNat < 500 := by
    omega
  have values := (cycles_of_few xdiv.toNat few).2.2 range
  rw [UInt16.ofNat_toNat] at values
  have passes := (passes_iff few).mpr (.inr range)
  unfold Passes at passes
  rw [UInt8.lt_iff_toNat_lt, UInt8.lt_iff_toNat_lt, not_or] at passes
  exact ⟨values.1, ⟨values.2.1, Nat.not_lt.mp passes.1⟩,
    ⟨Nat.not_lt.mp passes.2, values.2.2⟩⟩

end Counters

/-! ## What the tuners write -/

/-- The registers 1 to 4 hold the counters and the fraction for a frequency. -/
structure Programmed
    (clock freq : UInt32)
    (divider : Divider)
    (registers : UInt8 → UInt8) : Prop where
  reg1 :
    registers 1 = (cycles (xdivFor (fVco freq divider.multi) (clock / 2))).1
  reg2 :
    registers 2 = (cycles (xdivFor (fVco freq divider.multi) (clock / 2))).2
  reg3 :
    registers 3 =
      (xinFor (fVco freq divider.multi) (clock / 2) >>> 8).toUInt8
  reg4 :
    registers 4 =
      (xinFor (fVco freq divider.multi) (clock / 2) &&& 0xff).toUInt8

/-- The registers of the PLL. -/
def pllRegisters : List UInt8 :=
  [1, 2, 3, 4, 5, 6]

section Programs

variable {clock freq bandwidth : UInt32} {divider : Divider} {before : Chip}

/-- Counters that do not pass are refused. -/
theorem pllValues_refuses
    (fast : 2000 ≤ clock)
    (refused : ¬ Passes (xdivFor (fVco freq divider.multi) (clock / 2))) :
    Returns (pllValues clock freq bandwidth divider).run before (.error (-1))
      (fun after => after = before) := by
  unfold Passes at refused
  unfold pllValues
  dsimp only
  rw [if_neg (half_ne_zero fast).1, if_pos (not_not.mp refused)]
  exact Returns.runThrow rfl

/-- Counters that pass are written with the fraction. -/
theorem pllValues_passes
    (fast : 2000 ≤ clock)
    (passes : Passes (xdivFor (fVco freq divider.multi) (clock / 2))) :
    ∃ values reg5 reg6,
      Returns (pllValues clock freq bandwidth divider).run before (.ok values)
          (fun after => after = before) ∧
        values.reg =
          [(cycles (xdivFor (fVco freq divider.multi) (clock / 2))).1,
            (cycles (xdivFor (fVco freq divider.multi) (clock / 2))).2,
            (xinFor (fVco freq divider.multi) (clock / 2) >>> 8).toUInt8,
            (xinFor (fVco freq divider.multi) (clock / 2) &&& 0xff).toUInt8,
            reg5, reg6] := by
  obtain ⟨notZero, notZeroKhz⟩ := half_ne_zero fast
  unfold Passes at passes
  unfold pllValues
  dsimp only
  rw [if_neg notZero, if_neg passes, if_neg notZeroKhz]
  exact ⟨_, _, _, Returns.runPure rfl, rfl⟩

/-- Writes in a row leave in each register what was written last. -/
theorem writeregs_answered
    (answering : before.Answering)
    (writes : List (UInt8 × UInt8)) :
    Returns (writeregs writes).run before (.ok ()) (Chip.Loaded writes before) := by
  induction writes generalizing before with
  | nil =>
      exact Returns.runPure (.nil answering)
  | cons first rest inductionHypothesis =>
      apply (writereg_answered answering first.1 first.2).runBind
      rintro middle ⟨answering, wrote⟩
      exact (inductionHypothesis answering).mono fun after later => .cons wrote later

/-- The writes of the PLL registers, with the values that were computed. -/
theorem writes_programmed
    (answering : before.Answering)
    {values : PllValues}
    {reg5 reg6 : UInt8}
    (reg :
      values.reg =
        [(cycles (xdivFor (fVco freq divider.multi) (clock / 2))).1,
          (cycles (xdivFor (fVco freq divider.multi) (clock / 2))).2,
          (xinFor (fVco freq divider.multi) (clock / 2) >>> 8).toUInt8,
          (xinFor (fVco freq divider.multi) (clock / 2) &&& 0xff).toUInt8,
          reg5, reg6]) :
    Returns (writeregs values.writes).run before (.ok ()) (fun after =>
      after.Answering ∧ Programmed clock freq divider after.registers) := by
  apply (writeregs_answered answering _).mono
  rintro after ⟨answering, registers⟩
  unfold PllValues.writes at registers
  rw [reg] at registers
  refine ⟨answering, ?_⟩
  rw [registers]
  constructor <;>
    simp [Function.update]

/-- What is programmed stays as long as other registers are written. -/
theorem Programmed.within
    {footprint : List UInt8}
    {after : Chip}
    (programmed : Programmed clock freq divider before.registers)
    (within : Chip.Within footprint before after)
    (apart : ∀ reg ∈ footprint, reg ∉ [1, 2, 3, 4]) :
    Programmed clock freq divider after.registers := by
  have same : ∀ reg ∈ [1, 2, 3, 4], after.registers reg = before.registers reg :=
    fun reg member => within.others reg fun inside => apart reg inside member
  constructor
  · rw [same 1 (by decide), programmed.reg1]
  · rw [same 2 (by decide), programmed.reg2]
  · rw [same 3 (by decide), programmed.reg3]
  · rw [same 4 (by decide), programmed.reg4]

theorem calibrateVco_within
    {start : Chip}
    (within : Chip.Within [0x06, 0x0e] start before) :
    Returns calibrateVco.run before (.ok ())
      (Chip.Within [0x06, 0x0e] start) := by
  apply (writereg_within within (by decide) _).runBind
  intro middle within
  apply (writereg_within within (by decide) _).runBind
  intro after within
  exact Returns.runPure within

/-- The choice of the range of the VCO writes register 6 alone of the PLL. -/
theorem selectVco_within
    (answering : before.Answering)
    (vcoSelect : Bool)
    (reg6 : UInt8) :
    Returns (selectVco vcoSelect reg6).run before (.ok ())
      (Chip.Within [0x06, 0x0e] before) := by
  have adjusts :
      ∀ (chip : Chip) (val : UInt8),
        Chip.Within [0x06, 0x0e] before chip →
          Returns (do
            writereg 0x06 val
            calibrateVco : Checked Chip Unit).run chip (.ok ())
            (Chip.Within [0x06, 0x0e] before) := by
    intro chip val within
    apply (writereg_within within (by decide) val).runBind
    intro middle within
    exact calibrateVco_within within
  apply (calibrateVco_within (answering.within _)).runBind
  intro calibrated within
  apply (writereg_within within (by decide) _).runBind
  intro recalibrated within
  apply (readreg_within within _).runBind
  intro shown within
  dsimp only
  split
  · split
    · exact adjusts _ _ within
    · exact Returns.runPure within
  · split
    · exact adjusts _ _ within
    · exact Returns.runPure within

end Programs

/--
On an answering chip a function programs what is computed for a frequency, or
refuses the frequency before it writes a register of the PLL.
-/
structure Programs
    (setParams : UInt32 → UInt32 → UInt32 → Checked Chip Unit)
    (divider : UInt32 → Divider) : Prop where
  accepts :
    ∀ {clock freq : UInt32} (bandwidth : UInt32) {before : Chip},
      before.Answering →
        2000 ≤ clock →
        Passes (xdivFor (fVco freq (divider freq).multi) (clock / 2)) →
        Returns (setParams clock freq bandwidth).run before (.ok ())
          (fun after => Programmed clock freq (divider freq) after.registers)
  refuses :
    ∀ {clock freq : UInt32} (bandwidth : UInt32) {before : Chip},
      before.Answering →
        2000 ≤ clock →
        ¬ Passes (xdivFor (fVco freq (divider freq).multi) (clock / 2)) →
        Returns (setParams clock freq bandwidth).run before (.error (-1))
          (fun after =>
            ∀ reg ∈ pllRegisters, after.registers reg = before.registers reg)

end FcTuner

namespace Fc0012

open FcTuner

theorem setParams_programs : Programs setParams divider where
  accepts bandwidth before answering fast passes := by
    obtain ⟨values, _, _, computes, reg⟩ := pllValues_passes fast passes
    apply Returns.runBind computes
    rintro _ rfl
    apply (writes_programmed answering reg).runBind
    rintro middle ⟨answering, programmed⟩
    apply (selectVco_within answering _ _).mono
    intro after within
    exact programmed.within within (by simp)
  refuses bandwidth before answering fast refused := by
    apply Returns.runBindError
    apply (pllValues_refuses fast refused).mono
    rintro _ rfl reg _
    rfl

end Fc0012

namespace Fc0013

open FcTuner

theorem setParams_programs : Programs setParams divider where
  accepts bandwidth before answering fast passes := by
    obtain ⟨tracks, filters⟩ := filters_within answering _
    apply tracks.runBind
    intro tracked within
    apply (filters tracked within).runBind
    intro filtered within
    obtain ⟨values, _, _, computes, reg⟩ := pllValues_passes fast passes
    apply Returns.runBind computes
    rintro _ rfl
    apply (writes_programmed within.answering reg).runBind
    rintro middle ⟨answering, programmed⟩
    apply (updatereg_within (answering.within [0x11]) (by decide) _).runBind
    intro updated within
    apply (selectVco_within within.answering _ _).mono
    intro after selected
    exact (programmed.within within (by simp)).within selected (by simp)
  refuses bandwidth before answering fast refused := by
    obtain ⟨tracks, filters⟩ := filters_within answering _
    apply tracks.runBind
    intro tracked within
    apply (filters tracked within).runBind
    intro filtered within
    apply Returns.runBindError
    apply (pllValues_refuses fast refused).mono
    rintro _ rfl reg member
    apply within.others
    have apart : ∀ reg ∈ pllRegisters, reg ∉ [0x07, 0x14, 0x1d] := by
      simp [pllRegisters]
    exact apart reg member

end Fc0013

/-! ## The split of the true product -/

namespace FcTuner

/-- Counters in their range, for the nearest count of steps of 14.4 MHz. -/
def Divides (product reg1 reg2 : Nat) : Prop :=
  ∃ steps, Nearest 14400000 product steps ∧ Counters steps reg1 reg2

/--
With a tuner clock of 28.8 MHz: the registers 1 and 2 are written with counters
that divide the product, or the frequency is refused and no register of the PLL
is written; and it is refused when there are no such counters.
-/
def DividesOrRefuses
    (setParams : UInt32 → UInt32 → UInt32 → Checked Chip Unit)
    (divider : UInt32 → Divider)
    (freq : UInt32) : Prop :=
  ∀ (bandwidth : UInt32) (before : Chip),
    before.Answering →
      ∃ answer after,
        Yields (setParams 28800000 freq bandwidth).run before answer after ∧
          ((answer = .ok () ∧
              Divides (freq.toNat * (divider freq).multi.toNat)
                (after.registers 1).toNat (after.registers 2).toNat) ∨
            (answer = .error (-1) ∧
              ∀ reg ∈ pllRegisters,
                after.registers reg = before.registers reg)) ∧
          ((¬ ∃ reg1 reg2,
              Divides (freq.toNat * (divider freq).multi.toNat) reg1 reg2) →
            answer = .error (-1))

/--
The product in its 32 bits is a step and a half at least, and if it has wrapped
it is outside of what the counters hold.
-/
def Divisible (product : Nat) : Prop :=
  21600000 ≤ product % 2 ^ 32 ∧
    (product < 2 ^ 32 ∨
      product % 2 ^ 32 < 1288800000 ∨ 3794400000 ≤ product % 2 ^ 32)

instance (product : Nat) : Decidable (Divisible product) :=
  inferInstanceAs (Decidable (_ ∧ _))

section Division

variable {freq : UInt32} {multi : UInt8}

/-- The count of steps, with the crystal of 28.8 MHz. -/
theorem steps_eq :
    (xdivFor (fVco freq multi) (28800000 / 2)).toNat =
      roundHalf 14400000 (freq.toNat * multi.toNat % 2 ^ 32) := by
  rw [← fVco_toNat]
  exact xdivFor_toNat fVco_lt (by decide)

theorem steps_lt : (xdivFor (fVco freq multi) (28800000 / 2)).toNat < 300 := by
  have small : freq.toNat * multi.toNat % 2 ^ 32 < 2 ^ 32 :=
    Nat.mod_lt _ (by decide)
  rw [steps_eq]
  unfold roundHalf
  split <;>
    omega

/-- The product passes the check in one of three ways, or it does not. -/
theorem passes_divisible :
    (¬ Passes (xdivFor (fVco freq multi) (28800000 / 2)) ∧
        Divisible (freq.toNat * multi.toNat)) ∨
      (Passes (xdivFor (fVco freq multi) (28800000 / 2)) ∧
        Divisible (freq.toNat * multi.toNat) ∧
        freq.toNat * multi.toNat < 2 ^ 32 ∧
        90 ≤ (xdivFor (fVco freq multi) (28800000 / 2)).toNat ∧
        (xdivFor (fVco freq multi) (28800000 / 2)).toNat ≤ 263) ∨
      (Passes (xdivFor (fVco freq multi) (28800000 / 2)) ∧
        ¬ Divisible (freq.toNat * multi.toNat)) := by
  have few : (xdivFor (fVco freq multi) (28800000 / 2)).toNat < 500 :=
    steps_lt.trans (by decide)
  rw [passes_iff few, steps_eq]
  unfold Divisible roundHalf
  generalize freq.toNat * multi.toNat = product
  split <;>
    omega

/-- The counters of a product that is not divisible are far from it. -/
theorem not_divides_of_indivisible
    (passes : Passes (xdivFor (fVco freq multi) (28800000 / 2)))
    (indivisible : ¬ Divisible (freq.toNat * multi.toNat)) :
    ¬ Divides (freq.toNat * multi.toNat)
      (cycles (xdivFor (fVco freq multi) (28800000 / 2))).1.toNat
      (cycles (xdivFor (fVco freq multi) (28800000 / 2))).2.toNat := by
  have few : (xdivFor (fVco freq multi) (28800000 / 2)).toNat < 500 :=
    steps_lt.trans (by decide)
  have count := @steps_eq freq multi
  rintro ⟨steps, nearest, split, _, _⟩
  have value :
      (steps = 256 + (xdivFor (fVco freq multi) (28800000 / 2)).toNat ∧
          (xdivFor (fVco freq multi) (28800000 / 2)).toNat < 2) ∨
        steps = (xdivFor (fVco freq multi) (28800000 / 2)).toNat := by
    rcases (passes_iff few).mp passes with borrowed | range
    · -- the product is less than two steps, or has wrapped to so little
      exact .inl ⟨split.symm.trans (cycles_of_borrow borrowed), borrowed⟩
    · exact .inr (split.symm.trans (cycles_counters range).split)
  have passed := (passes_iff few).mp passes
  revert nearest
  apply not_nearest_of_lt (by decide)
  unfold Divisible at indivisible
  unfold roundHalf at count
  generalize freq.toNat * multi.toNat = product at *
  split at count <;>
    omega

end Division

/-- A tuner divides exactly the divisible products. -/
theorem Programs.divides_iff
    {setParams : UInt32 → UInt32 → UInt32 → Checked Chip Unit}
    {divider : UInt32 → Divider}
    (programs : Programs setParams divider)
    (freq : UInt32) :
    DividesOrRefuses setParams divider freq ↔
      Divisible (freq.toNat * (divider freq).multi.toNat) := by
  rcases @passes_divisible freq (divider freq).multi with
    ⟨refused, divisible⟩ | ⟨passes, divisible, fits, range⟩ |
      ⟨passes, indivisible⟩
  · refine iff_of_true (fun bandwidth before answering => ?_) divisible
    obtain ⟨after, yields, kept⟩ :=
      programs.refuses bandwidth answering (by decide) refused
    exact ⟨_, after, yields, .inr ⟨rfl, kept⟩, fun _ => rfl⟩
  · refine iff_of_true (fun bandwidth before answering => ?_) divisible
    obtain ⟨after, yields, programmed⟩ :=
      programs.accepts bandwidth answering (by decide) passes
    have divides :
        Divides (freq.toNat * (divider freq).multi.toNat)
          (after.registers 1).toNat (after.registers 2).toNat := by
      rw [programmed.reg1, programmed.reg2]
      refine ⟨_, ?_, cycles_counters range⟩
      rw [steps_eq, Nat.mod_eq_of_lt fits]
      exact nearest_roundHalf (by decide) (by decide)
    exact ⟨_, after, yields, .inl ⟨rfl, divides⟩,
      fun none => absurd ⟨_, _, divides⟩ none⟩
  · refine iff_of_false (fun divides => ?_) indivisible
    obtain ⟨answer, after, yields, outcome, _⟩ :=
      divides 0 _ Chip.cleared_answering
    obtain ⟨rfl, programmed⟩ :=
      (programs.accepts 0 Chip.cleared_answering (by decide) passes).of_yields yields
    rcases outcome with ⟨_, split⟩ | ⟨absurdity, _⟩
    · rw [programmed.reg1, programmed.reg2] at split
      exact not_divides_of_indivisible passes indivisible split
    · cases absurdity

/--
With a tuner clock of 28.8 MHz, and for every frequency: both tuners split the
product for the VCO frequency rightly or refuse it, exactly if the product is
divisible.
-/
theorem setParams_divides_iff
    (freq : UInt32) :
    (DividesOrRefuses Fc0012.setParams Fc0012.divider freq ↔
      Divisible (freq.toNat * (Fc0012.divider freq).multi.toNat)) ∧
    (DividesOrRefuses Fc0013.setParams Fc0013.divider freq ↔
      Divisible (freq.toNat * (Fc0013.divider freq).multi.toNat)) :=
  ⟨Fc0012.setParams_programs.divides_iff freq,
    Fc0013.setParams_programs.divides_iff freq⟩

/--
For 1.4 GHz the product of the FC0012 wraps to 91 steps, and for 100 kHz the
counter of the FC0013 borrows below zero; both frequencies are programmed.
-/
theorem setParams_not_divides :
    ¬ DividesOrRefuses Fc0012.setParams Fc0012.divider 1400000000 ∧
      ¬ DividesOrRefuses Fc0013.setParams Fc0013.divider 100000 := by
  rw [Fc0012.setParams_programs.divides_iff, Fc0013.setParams_programs.divides_iff]
  decide

end FcTuner

end LibRtlSdr
