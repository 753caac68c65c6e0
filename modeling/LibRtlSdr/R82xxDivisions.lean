import LibRtlSdr.R82xxPllRange

namespace LibRtlSdr.R82xx

open DriverProgram GreedyFraction MaskedWrites

/-!
# The divisions of the PLL

`r82xx_set_pll` divides by twice the reference, which must not wrap to zero, and
by `n_sdm`, which wraps to zero when the SDM loop ends with more than 1 kHz left
that no digit takes.  Both depend on the reference only, as long as any
frequency may be requested.
-/

/-- The references for which no frequency makes the processor trap. -/
def DividesSafely (pllRef : UInt32) : Prop :=
  pllRef ≠ 0 ∧ (pllRef.toNat < 32767500 ∨ 4294966796 ≤ pllRef.toNat)

section Ending

theorem sendMessage_ends
    (reg : Nat)
    (val : List Byte) :
    Ends (sendMessage reg val).run := by
  refine Ends.runGet.runBind fun priv => ?_
  cases priv.bus.writeAnswers priv.bus.writes with
  | done =>
      exact Ends.runModify _
  | failed code =>
      exact (Ends.runModify _).runBind fun _ => Ends.runThrow _

theorem sendMessages_ends
    (messages reg : Nat)
    (val : List Byte) :
    Ends (sendMessages messages reg val).run := by
  induction messages generalizing reg val with
  | zero =>
      exact Ends.runPure _
  | succ messages inductionHypothesis =>
      exact (sendMessage_ends reg _).runBind fun _ => inductionHypothesis _ _

theorem write_ends
    (reg : Nat)
    (val : List Byte) :
    Ends (write reg val).run :=
  (Ends.runModify _).runBind fun _ => sendMessages_ends _ _ _

theorem writeRegMask_ends
    (reg : Nat)
    (val bitMask : Byte) :
    Ends (writeRegMask reg val bitMask).run := by
  refine Ends.runGet.runBind fun priv => ?_
  split
  · exact write_ends _ _
  · exact Ends.runThrow _

theorem writeMasks_ends
    (writes : List (MaskedWrite Nat 8)) :
    Ends (writeMasks writes).run := by
  induction writes with
  | nil =>
      exact Ends.runPure _
  | cons first rest inductionHypothesis =>
      exact (writeRegMask_ends _ _ _).runBind fun _ => inductionHypothesis

theorem read_ends
    (reg : Nat) :
    Ends (read reg).run := by
  refine (sendMessage_ends reg []).runBind fun _ =>
    Ends.runGet.runBind fun priv => (Ends.runModify _).runBind fun _ => ?_
  rcases priv.bus.readAnswers priv.bus.reads with ⟨transfer, data⟩
  cases transfer with
  | done =>
      exact Ends.runPure _
  | failed code =>
      exact Ends.runThrow _

theorem waitForLock_ends :
    Ends waitForLock.run := by
  refine (read_ends 0x00).runBind fun data => ?_
  split
  · exact Ends.runPure _
  · exact (writeMasks_ends _).runBind fun _ =>
      (read_ends 0x00).runBind fun _ => Ends.runPure _

/-- The SDM loop ends for a reference whose last digit is worth 1 kHz at most. -/
theorem sdmLoop_ends
    {pllRefKhz : UInt32}
    (small : (2 * pllRefKhz).toNat / 2 ^ 15 ≤ 1)
    (fra : UInt32) :
    Ends (sdmLoop pllRefKhz 15 fra 0).run := by
  have loops := sdmLoop_eq pllRefKhz fra (Nat.le_refl 15) 0
  have isSome :
      ∃ outcome,
        expand (2 * pllRefKhz).toNat 1 15 15 fra.toNat 0 = some outcome :=
    expand_isSome small (Or.inl (by decide))
  rcases isSome with ⟨outcome, expanded⟩
  rw [expanded] at loops
  change Ends (sdmLoop _ 15 _ (UInt16.ofNat (2 * 0))).run
  rw [loops]
  exact Ends.runPure _

variable {freq : UInt32} {before : Priv}

/-- With such a reference `r82xx_set_pll` returns, whatever the chip answers. -/
theorem setPll_ends
    (positive : 2 * before.xtal ≠ 0)
    (small : (2 * ((before.xtal + 500) / 1000)).toNat / 2 ^ 15 ≤ 1) :
    ∃ answer after, Yields (setPll freq).run before answer after := by
  unfold setPll
  apply Ends.runGetBind
  refine (writeMasks_ends _).runBind fun _ =>
    (read_ends 0x00).runBind fun data => (writeMasks_ends _).runBind fun _ => ?_
  rw [if_neg positive]
  refine Ends.ite (Ends.runThrow _) ?_
  refine (write_ends _ _).runBind fun _ => (writeMasks_ends _).runBind fun _ =>
    (sdmLoop_ends small _).runBind fun _ => (write_ends _ _).runBind fun _ =>
      (write_ends _ _).runBind fun _ => waitForLock_ends.runBind fun locked => ?_
  split
  · exact (Ends.runModify _).runBind fun _ => writeMasks_ends _
  · exact Ends.runModify _

end Ending

section Trapping

variable {freq pllRef : UInt32} {before : Priv}

/-- When every transfer succeeds, the two divisions can be reached. -/
theorem setPll_traps
    (done : before.AllDone)
    (zero :
      2 * before.xtal = 0 ∨
        ((pllNint freq before.xtal).toNat ≤ nintLimit before.rafaelChip ∧
          expand (2 * ((before.xtal + 500) / 1000)).toNat 1 15 15
              (vcoFra freq before.xtal).toNat 0 =
            none)) :
    Traps (setPll freq).run before := by
  unfold setPll
  apply Traps.runGetBind
  apply (done.writeMasks (by simp [Shadowed])).runBind_traps
  intro _ done
  apply (done.read 0x00).runBind_traps
  intro _ done
  apply (done.writeMasks (by simp [Shadowed])).runBind_traps
  intro _ done
  by_cases noReference : 2 * before.xtal = 0
  · rw [if_pos noReference]
    exact traps_run_fault
  · rcases zero.resolve_left noReference with ⟨inLimit, stuck⟩
    rw [if_neg noReference, if_neg (Nat.not_lt.mpr inLimit)]
    apply (done.writeReg 0x14 _).runBind_traps
    intro _ done
    apply (done.writeMasks (by simp [Shadowed])).runBind_traps
    intro _ done
    have loops :=
      sdmLoop_eq ((before.xtal + 500) / 1000) (vcoFra freq before.xtal)
        (Nat.le_refl 15) 0
    rw [stuck] at loops
    change Traps (sdmLoop _ 15 _ (UInt16.ofNat (2 * 0)) >>= _).run _
    rw [loops]
    exact traps_run_fault.runBind

/-- The reference in kHz, twice; the rounding may wrap. -/
theorem twiceKhz_wraps
    (pllRef : UInt32) :
    (2 * ((pllRef + 500) / 1000)).toNat =
      2 * ((pllRef.toNat + 500) % 2 ^ 32 / 1000) := by
  have khz :
      ((pllRef + 500) / 1000).toNat = (pllRef.toNat + 500) % 2 ^ 32 / 1000 := by
    rw [UInt32.toNat_div, UInt32.toNat_add]
    rfl
  rw [twice_toNat (by rw [khz]; omega), khz]

/-- Twice the reference, which may wrap. -/
theorem twice_wraps
    (pllRef : UInt32) :
    (2 * pllRef).toNat = 2 * pllRef.toNat % 2 ^ 32 := by
  rw [UInt32.toNat_mul]
  rfl

/-- A frequency far below the VCO whose whole number of periods is cut to zero. -/
theorem programmed_of_low
    (low : freq.toNat ≤ 1100000)
    (cut : freq.toNat * 128 / (2 * pllRef).toNat % 256 = 0) :
    (pllNint freq pllRef).toNat = 0 ∧
      (vcoFra freq pllRef).toNat = freq.toNat * 128 / 1000 := by
  have outside : ∀ exponent < 6, ¬ InVcoRange freq (2 ^ (exponent + 1)) := by
    intro exponent small inRange
    have power : 2 ^ (exponent + 1) ≤ 2 ^ 6 :=
      Nat.pow_le_pow_right (by decide) small
    have product :
        (freq.toNat + 500) / 1000 * 2 ^ (exponent + 1) ≤ 1100 * 2 ^ 6 :=
      Nat.mul_le_mul (by omega) power
    have reached := inRange.1
    omega
  have divider := mixDivider_of_forall outside
  have vco : (vcoFreq freq).toNat = freq.toNat * 128 :=
    vcoFreq_toNat (by rw [divider]; rfl) (Nat.le_refl 128)
  have nint : (pllNint freq pllRef).toNat = 0 := by
    unfold pllNint
    rw [BitVec.toNat_ofNat, UInt64.toNat_div, UInt32.toNat_toUInt64, vco]
    exact cut
  refine ⟨nint, ?_⟩
  unfold vcoFra
  have nothing : (2 * pllRef * UInt32.ofNat 0).toUInt64 = 0 := by
    rw [show UInt32.ofNat 0 = 0 from rfl, UInt32.mul_zero]
    rfl
  have thousand : (1000 : UInt64).toNat = 1000 :=
    rfl
  rw [nint, nothing, UInt64.sub_zero, UInt64.toNat_toUInt32,
    UInt64.toNat_div, vco, thousand]
  exact Nat.mod_eq_of_lt (by omega)

/-- How many times 256 periods of a reference of few Hz stick in the SDM loop. -/
def stuckTurns (above : Nat) : Nat :=
  if above % 512 = 0 then 63
  else if above % 512 < 258 then 4 / (above % 512) + 1
  else 256 / (512 - above % 512) + 1

/-- A reference a little above 2^31 Hz wraps to few Hz; some multiple of it is no sum of digits. -/
theorem expand_stuckTurns :
    ∀ above < 1025, 0 < above →
      stuckTurns above < 258 ∧
        (expand (2 * ((2 ^ 31 + above + 500) / 1000)) 1 15 15
            (512 * above * stuckTurns above / 1000) 0).isNone = true := by
  decide +kernel

/-- For any other reference the processor traps at some frequency. -/
theorem exists_trap
    (outside : ¬ DividesSafely pllRef) :
    2 * pllRef = 0 ∨
      ∃ freq,
        (pllNint freq pllRef).toNat = 0 ∧
          expand (2 * ((pllRef + 500) / 1000)).toNat 1 15 15
              (vcoFra freq pllRef).toNat 0 =
            none := by
  have bound := pllRef.toNat_lt
  by_cases noReference : 2 * pllRef = 0
  · exact Or.inl noReference
  right
  have twice := twice_wraps pllRef
  have positive : (2 * pllRef).toNat ≠ 0 := by
    intro isZero
    exact noReference (UInt32.toNat_inj.mp isZero)
  have between : 32767500 ≤ pllRef.toNat ∧ pllRef.toNat < 4294966796 := by
    by_contra notBetween
    apply outside
    constructor
    · rintro rfl
      exact noReference rfl
    · omega
  have whole :
      (2 * ((pllRef + 500) / 1000)).toNat = 2 * ((pllRef.toNat + 500) / 1000) := by
    rw [twiceKhz_wraps, Nat.mod_eq_of_lt (by omega)]
  by_cases wrapped : (2 * pllRef).toNat ≤ 2048
  · -- Twice the reference wraps to few Hz.
    obtain ⟨above, isAbove⟩ : ∃ above, pllRef.toNat = 2 ^ 31 + above :=
      ⟨pllRef.toNat - 2 ^ 31, by omega⟩
    rcases expand_stuckTurns above (by omega) (by omega) with ⟨few, stuck⟩
    generalize stuckTurns above = turns at few stuck
    have product : above * turns ≤ 1024 * 257 :=
      Nat.mul_le_mul (by omega) (by omega)
    have freqNat :
        (UInt32.ofNat (4 * (above * turns))).toNat = 4 * (above * turns) :=
      UInt32.toNat_ofNat_of_lt' (by
        change _ < 2 ^ 32
        omega)
    have periods :
        4 * (above * turns) * 128 / (2 * pllRef).toNat = 256 * turns := by
      have isTwice : (2 * pllRef).toNat = 2 * above := by
        omega
      rw [isTwice]
      apply Nat.div_eq_of_eq_mul_right (by omega)
      ring
    have rest :
        4 * (above * turns) * 128 / 1000 = 512 * above * turns / 1000 := by
      congr 1
      ring
    have low : (UInt32.ofNat (4 * (above * turns))).toNat ≤ 1100000 := by
      omega
    have cut :
        (UInt32.ofNat (4 * (above * turns))).toNat * 128 /
            (2 * pllRef).toNat % 256 =
          0 := by
      rw [freqNat, periods, Nat.mul_mod_right]
    rcases programmed_of_low low cut with ⟨nint, fra⟩
    refine ⟨_, nint, ?_⟩
    rw [fra, freqNat, rest, whole, isAbove]
    exact Option.isNone_iff_eq_none.mp stuck
  · -- The whole number of periods is zero, and 2 kHz are left over.
    have periods : 16 * 128 / (2 * pllRef).toNat = 0 :=
      Nat.div_eq_of_lt (by omega)
    have low : (16 : UInt32).toNat ≤ 1100000 := by
      decide
    have cut : (16 : UInt32).toNat * 128 / (2 * pllRef).toNat % 256 = 0 := by
      change 16 * 128 / (2 * pllRef).toNat % 256 = 0
      rw [periods]
    rcases programmed_of_low low cut with ⟨nint, fra⟩
    refine ⟨16, nint, ?_⟩
    rw [fra, whole]
    have lastPart : 2 ≤ 2 * ((pllRef.toNat + 500) / 1000) / 2 ^ 15 := by
      omega
    exact expand_eq_none (by decide) lastPart

end Trapping

/-- `r82xx_set_pll` never divides by zero with exactly these references. -/
theorem setPll_never_traps_iff
    (pllRef : UInt32) :
    (∀ freq priv, priv.xtal = pllRef → ¬ Traps (setPll freq).run priv) ↔
      DividesSafely pllRef := by
  constructor
  · intro never
    by_contra outside
    have done : ({ poweredTuner with xtal := pllRef } : Priv).AllDone :=
      ⟨fun _ => rfl, fun _ => rfl⟩
    rcases exists_trap outside with noReference | ⟨freq, nint, stuck⟩
    · exact never 0 _ rfl (setPll_traps done (Or.inl noReference))
    · refine never freq _ rfl (setPll_traps done (Or.inr ⟨?_, stuck⟩))
      rw [nint]
      exact Nat.zero_le _
  · rintro ⟨notZero, range⟩ freq priv rfl
    have bound := priv.xtal.toNat_lt
    have positive : 0 < priv.xtal.toNat := by
      by_contra isZero
      exact notZero (UInt32.toNat_inj.mp (Nat.eq_zero_of_not_pos isZero))
    have twicePositive : 2 * priv.xtal ≠ 0 := by
      intro isZero
      have twice := twice_wraps priv.xtal
      rw [isZero] at twice
      change 0 = _ at twice
      omega
    have small : (2 * ((priv.xtal + 500) / 1000)).toNat / 2 ^ 15 ≤ 1 := by
      rw [twiceKhz_wraps]
      omega
    have ends :
        ∃ answer after, Yields (setPll freq).run priv answer after :=
      setPll_ends twicePositive small
    rcases ends with ⟨_, _, yields⟩
    exact yields.not_traps

end LibRtlSdr.R82xx
