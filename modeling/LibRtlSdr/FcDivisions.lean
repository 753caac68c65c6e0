import LibRtlSdr.FcTuners

namespace LibRtlSdr

open DriverProgram ByteChip

/-!
# The divisions of the FC0012 and FC0013

Both divide by half of the tuner clock, and later by that in kHz.  With half a
clock of 1 kHz at least neither is zero; below, a frequency of half the clock
passes the checks in between and reaches the second division.
-/

namespace FcTuner

section Ending

theorem writereg_ends
    (reg val : UInt8) :
    Ends (writereg reg val).run :=
  (writeByte_ends reg val).runLift.runBind fun _ =>
    Ends.ite (Ends.runPure _) (Ends.runThrow _)

theorem readreg_ends
    (reg : UInt8) :
    Ends (readreg reg).run := by
  refine (readByte_ends reg).runLift.runBind fun read => ?_
  cases read with
  | none =>
      exact Ends.runThrow _
  | some val =>
      exact Ends.runPure _

theorem writeregs_ends
    (writes : List (UInt8 × UInt8)) :
    Ends (writeregs writes).run := by
  induction writes with
  | nil =>
      exact Ends.runPure _
  | cons first rest inductionHypothesis =>
      exact (writereg_ends _ _).runBind fun _ => inductionHypothesis

theorem selectVco_ends
    (vcoSelect : Bool)
    (reg6 : UInt8) :
    Ends (selectVco vcoSelect reg6).run := by
  have calibrates : Ends calibrateVco.run :=
    writeregs_ends _
  refine calibrates.runBind fun _ => (writereg_ends _ _).runBind fun _ =>
    (readreg_ends _).runBind fun tmp => ?_
  have writes :
      ∀ val : UInt8,
        Ends (do
          writereg 0x06 val
          calibrateVco : Checked Chip Unit).run :=
    fun _ => (writereg_ends _ _).runBind fun _ => calibrates
  split
  · exact Ends.ite (writes _) (Ends.runPure _)
  · exact Ends.ite (writes _) (Ends.runPure _)

variable {clock : UInt32}

/-- Half of a clock of 2 kHz is not zero, neither in Hz nor in kHz. -/
theorem half_ne_zero
    (fast : 2000 ≤ clock) :
    clock / 2 ≠ 0 ∧ clock / 2 / 1000 ≠ 0 := by
  have fastNat : 2000 ≤ clock.toNat :=
    UInt32.le_iff_toNat_le.mp fast
  have half : (clock / 2).toNat = clock.toNat / 2 :=
    UInt32.toNat_div _ _
  have khz : (clock / 2 / 1000).toNat = clock.toNat / 2 / 1000 := by
    rw [UInt32.toNat_div, half]
    rfl
  constructor
  · intro isZero
    rw [isZero] at half
    change 0 = _ at half
    omega
  · intro isZero
    rw [isZero] at khz
    change 0 = _ at khz
    omega

/-- With a clock of 2 kHz the values are computed. -/
theorem pllValues_ends
    (fast : 2000 ≤ clock)
    (freq bandwidth : UInt32)
    (divider : Divider) :
    Ends (pllValues clock freq bandwidth divider).run := by
  obtain ⟨notZero, notZeroKhz⟩ := half_ne_zero fast
  unfold pllValues
  dsimp only
  rw [if_neg notZero, if_neg notZeroKhz]
  exact Ends.ite (Ends.runThrow _) (Ends.runPure _)

end Ending

section Trapping

variable {clock freq bandwidth : UInt32} {divider : Divider} {before : Chip}

/-- A frequency of half the clock passes the checks, if both are below 1 kHz. -/
theorem cycles_of_slow :
    ∀ half < 1000, 0 < half →
      ¬ (15 < (cycles (xdivFor (fVco (UInt32.ofNat half) 96)
            (UInt32.ofNat half))).1 ∨
          (cycles (xdivFor (fVco (UInt32.ofNat half) 96)
            (UInt32.ofNat half))).2 < 0x0b) := by
  decide +kernel

/-- Half of such a clock is below all limits of the divider tables. -/
theorem half_low
    (slow : clock < 2000) :
    clock / 2 < 37084000 := by
  have slowNat : clock.toNat < 2000 :=
    UInt32.lt_iff_toNat_lt.mp slow
  rw [UInt32.lt_iff_toNat_lt, UInt32.toNat_div]
  change clock.toNat / 2 < 37084000
  omega

/-- With a clock below 2 kHz the processor traps at some frequency. -/
theorem pllValues_traps
    (slow : clock < 2000)
    (divided : divider.multi = 96) :
    Traps (pllValues clock (clock / 2) bandwidth divider).run before := by
  have slowNat : clock.toNat < 2000 :=
    UInt32.lt_iff_toNat_lt.mp slow
  have half : (clock / 2).toNat = clock.toNat / 2 :=
    UInt32.toNat_div _ _
  have khz : clock / 2 / 1000 = 0 := by
    apply UInt32.toNat_inj.mp
    rw [UInt32.toNat_div, half]
    exact Nat.div_eq_of_lt (by
      change clock.toNat / 2 < 1000
      omega)
  unfold pllValues
  dsimp only
  by_cases isZero : clock / 2 = 0
  · rw [if_pos isZero]
    exact traps_run_fault
  · have positive : 0 < (clock / 2).toNat := by
      by_contra notPositive
      exact isZero (UInt32.toNat_inj.mp (Nat.eq_zero_of_not_pos notPositive))
    have passes := cycles_of_slow (clock / 2).toNat (by omega) positive
    rw [UInt32.ofNat_toNat] at passes
    rw [if_neg isZero, divided, if_neg passes, if_pos khz]
    exact traps_run_fault

end Trapping

end FcTuner

namespace Fc0012

open FcTuner

/-- `fc0012_set_params` never divides by zero with exactly these tuner clocks. -/
theorem setParams_never_traps_iff
    (clock : UInt32) :
    (∀ freq bandwidth chip, ¬ Traps (setParams clock freq bandwidth).run chip) ↔
      2000 ≤ clock := by
  constructor
  · intro never
    by_contra notFast
    have slow : clock < 2000 :=
      UInt32.not_le.mp notFast
    have divided : (divider (clock / 2)).multi = 96 := by
      unfold divider
      rw [if_pos (half_low slow)]
    exact never (clock / 2) 0 Chip.cleared (pllValues_traps slow divided).runBind
  · intro fast freq bandwidth chip
    have ends : Ends (setParams clock freq bandwidth).run :=
      (pllValues_ends fast _ _ _).runBind fun _ =>
        (writeregs_ends _).runBind fun _ => selectVco_ends _ _
    exact ends.not_traps chip

end Fc0012

namespace Fc0013

open FcTuner

theorem updatereg_ends
    (reg : UInt8)
    (change : UInt8 → UInt8) :
    Ends (updatereg reg change).run :=
  (readreg_ends _).runBind fun _ => writereg_ends _ _

theorem setFilters_ends
    (freq : UInt32) :
    Ends (setFilters freq).run := by
  unfold setFilters
  split
  · exact (updatereg_ends _ _).runBind fun _ => updatereg_ends _ _
  · exact (updatereg_ends _ _).runBind fun _ => updatereg_ends _ _

section Filters

variable {before start : Chip}

theorem updatereg_within
    {footprint : List UInt8}
    (within : Chip.Within footprint start before)
    {reg : UInt8}
    (member : reg ∈ footprint)
    (change : UInt8 → UInt8) :
    Returns (updatereg reg change).run before (.ok ())
      (Chip.Within footprint start) := by
  apply (readreg_within within reg).runBind
  intro middle within
  exact writereg_within within member _

/-- The filters are in registers of their own. -/
theorem filters_within
    (answering : before.Answering)
    (freq : UInt32) :
    Returns (setVhfTrack freq).run before (.ok ())
        (Chip.Within [0x07, 0x14, 0x1d] before) ∧
      ∀ middle,
        Chip.Within [0x07, 0x14, 0x1d] before middle →
          Returns (setFilters freq).run middle (.ok ())
            (Chip.Within [0x07, 0x14, 0x1d] before) := by
  constructor
  · exact updatereg_within (answering.within _) (by decide)
      fun tmp => tmp &&& 0xe3 ||| vhfTrack freq
  · intro middle within
    unfold setFilters
    split
    · apply (updatereg_within within (by decide) _).runBind
      intro last within
      exact updatereg_within within (by decide) _
    · apply (updatereg_within within (by decide) _).runBind
      intro last within
      exact updatereg_within within (by decide) _

end Filters

/-- `fc0013_set_params` never divides by zero with exactly these tuner clocks. -/
theorem setParams_never_traps_iff
    (clock : UInt32) :
    (∀ freq bandwidth chip, ¬ Traps (setParams clock freq bandwidth).run chip) ↔
      2000 ≤ clock := by
  constructor
  · intro never
    by_contra notFast
    have slow : clock < 2000 :=
      UInt32.not_le.mp notFast
    have divided : (divider (clock / 2)).multi = 96 := by
      unfold divider
      rw [if_pos (half_low slow)]
    obtain ⟨tracks, filters⟩ :=
      filters_within Chip.cleared_answering (clock / 2)
    apply never (clock / 2) 0 Chip.cleared
    apply tracks.runBind_traps
    intro _ within
    apply (filters _ within).runBind_traps
    intro _ _
    exact (pllValues_traps slow divided).runBind
  · intro fast freq bandwidth chip
    have tracks : Ends (setVhfTrack freq).run :=
      (readreg_ends _).runBind fun _ => writereg_ends _ _
    have ends : Ends (setParams clock freq bandwidth).run :=
      tracks.runBind fun _ => (setFilters_ends freq).runBind fun _ =>
        (pllValues_ends fast _ _ _).runBind fun _ =>
          (writeregs_ends _).runBind fun _ =>
            (updatereg_ends _ _).runBind fun _ => selectVco_ends _ _
    exact ends.not_traps chip

end Fc0013

end LibRtlSdr
