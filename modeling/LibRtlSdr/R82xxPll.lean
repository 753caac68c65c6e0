import LibRtlSdr.GreedyFraction
import LibRtlSdr.R82xxShadow
import LibRtlSdr.R82xxSuccess
import LibRtlSdr.RtlSdrDevice
import Mathlib.Algebra.Order.Ring.Int
import Mathlib.Tactic.IntervalCases

namespace LibRtlSdr.R82xx

open DriverProgram GreedyFraction MaskedWrites OverlayWrites

/-!
# The PLL of the R82xx

`r82xx_set_pll` chooses the divider that brings the frequency into the range of
the VCO, splits the VCO frequency into a whole number of reference periods and a
rest in kHz, and writes the rest as a binary fraction of 16 bits.
-/

section Divider

/-- A divider brings a frequency, rounded to kHz, into the range of the VCO. -/
def InVcoRange (freq : UInt32) (mixDiv : Nat) : Prop :=
  1770000 ≤ (freq.toNat + 500) / 1000 * mixDiv ∧
    (freq.toNat + 500) / 1000 * mixDiv < 3540000

variable {freq : UInt32}

/-- At most one power of two does so. -/
theorem inVcoRange_unique
    {first second : Nat}
    (inRange : InVcoRange freq (2 ^ first))
    (inRangeToo : InVcoRange freq (2 ^ second)) :
    first = second := by
  have apart :
      ∀ {small large : Nat},
        InVcoRange freq (2 ^ small) →
          InVcoRange freq (2 ^ large) →
          ¬ small < large := by
    intro small large low high before
    have doubled : 2 ^ (small + 1) ≤ 2 ^ large :=
      Nat.pow_le_pow_right (by decide) before
    have product := Nat.mul_le_mul_left ((freq.toNat + 500) / 1000) doubled
    rw [pow_succ, ← Nat.mul_assoc] at product
    have lower := low.1
    have upper := high.2
    omega
  rcases Nat.lt_trichotomy first second with before | same | before
  · exact absurd before (apart inRange inRangeToo)
  · exact same
  · exact absurd before (apart inRangeToo inRange)

/-- The frequencies for which there is a divider. -/
theorem exists_inVcoRange_iff :
    (∃ exponent < 6, InVcoRange freq (2 ^ (exponent + 1))) ↔
      27656500 ≤ freq.toNat ∧ freq.toNat ≤ 1769999499 := by
  constructor
  · rintro ⟨exponent, small, low, high⟩
    interval_cases exponent <;>
      omega
  · rintro ⟨low, high⟩
    by_cases exceeds : 1770000 ≤ (freq.toNat + 500) / 1000 * 2
    · exact ⟨0, by decide, by omega, by omega⟩
    by_cases exceeds : 1770000 ≤ (freq.toNat + 500) / 1000 * 4
    · exact ⟨1, by decide, by omega, by omega⟩
    by_cases exceeds : 1770000 ≤ (freq.toNat + 500) / 1000 * 8
    · exact ⟨2, by decide, by omega, by omega⟩
    by_cases exceeds : 1770000 ≤ (freq.toNat + 500) / 1000 * 16
    · exact ⟨3, by decide, by omega, by omega⟩
    by_cases exceeds : 1770000 ≤ (freq.toNat + 500) / 1000 * 32
    · exact ⟨4, by decide, by omega, by omega⟩
    · exact ⟨5, by decide, by omega, by omega⟩

/-- The test of the divider loop is made on numbers that do not overflow. -/
theorem dividerTest_iff
    {exponent : Nat}
    (small : exponent < 6) :
    (1770000 ≤ (freq + 500) / 1000 * UInt32.ofNat (2 ^ (exponent + 1)) ∧
        (freq + 500) / 1000 * UInt32.ofNat (2 ^ (exponent + 1)) < 3540000) ↔
      InVcoRange freq (2 ^ (exponent + 1)) := by
  have bound := freq.toNat_lt
  have power :
      (UInt32.ofNat (2 ^ (exponent + 1))).toNat = 2 ^ (exponent + 1) := by
    interval_cases exponent <;>
      rfl
  have powerBound : 2 ^ (exponent + 1) ≤ 64 :=
    Nat.pow_le_pow_right (by decide) small
  have khz : ((freq + 500) / 1000).toNat = (freq.toNat + 500) % 2 ^ 32 / 1000 := by
    rw [UInt32.toNat_div, UInt32.toNat_add]
    rfl
  have product :
      ((freq + 500) / 1000 * UInt32.ofNat (2 ^ (exponent + 1))).toNat =
        (freq.toNat + 500) % 2 ^ 32 / 1000 * 2 ^ (exponent + 1) := by
    rw [UInt32.toNat_mul, khz, power]
    apply Nat.mod_eq_of_lt
    calc
      (freq.toNat + 500) % 2 ^ 32 / 1000 * 2 ^ (exponent + 1) ≤
          4294967 * 64 :=
        Nat.mul_le_mul (by omega) powerBound
      _ < 2 ^ 32 := by decide
  rw [UInt32.le_iff_toNat_le, UInt32.lt_iff_toNat_lt, product]
  change 1770000 ≤ _ ∧ _ < 3540000 ↔ _
  unfold InVcoRange
  by_cases wraps : freq.toNat + 500 < 2 ^ 32
  · rw [Nat.mod_eq_of_lt wraps]
  · -- The sum that wraps is as far out of range as the one that does not.
    have low : (freq.toNat + 500) % 2 ^ 32 / 1000 = 0 := by
      omega
    have high : 4294967 * 2 ≤ (freq.toNat + 500) / 1000 * 2 ^ (exponent + 1) :=
      Nat.mul_le_mul (by omega)
        (Nat.pow_le_pow_right (by decide : 0 < 2)
          (by omega : 1 ≤ exponent + 1))
    rw [low, Nat.zero_mul]
    omega

/-- The divider with a given exponent, and the code for it. -/
def dividerAt (exponent : Nat) : UInt32 × Byte :=
  (UInt32.ofNat (2 ^ (exponent + 1)), BitVec.ofNat 8 exponent)

/-- The loop goes through the exponents. -/
theorem mixDivider_eq
    (freqKhz : UInt32) :
    mixDivider freqKhz =
      (((List.range 6).find? fun exponent =>
          decide
            (1770000 ≤ freqKhz * UInt32.ofNat (2 ^ (exponent + 1)) ∧
              freqKhz * UInt32.ofNat (2 ^ (exponent + 1)) < 3540000)).map
        dividerAt).getD (128, 0) := by
  have dividers :
      [(2, 0), (4, 1), (8, 2), (16, 3), (32, 4), (64, 5)] =
        (List.range 6).map dividerAt :=
    rfl
  unfold mixDivider
  rw [dividers, List.find?_map]
  rfl

/-- The divider that is chosen. -/
theorem mixDivider_of_inVcoRange
    {exponent : Nat}
    (small : exponent < 6)
    (inRange : InVcoRange freq (2 ^ (exponent + 1))) :
    mixDivider ((freq + 500) / 1000) = dividerAt exponent := by
  rw [mixDivider_eq]
  have found :
      ((List.range 6).find? fun exponent =>
        decide
          (1770000 ≤ (freq + 500) / 1000 * UInt32.ofNat (2 ^ (exponent + 1)) ∧
            (freq + 500) / 1000 * UInt32.ofNat (2 ^ (exponent + 1)) <
              3540000)) = some exponent := by
    apply List.find?_range_eq_some.mpr
    refine ⟨decide_eq_true ((dividerTest_iff small).mpr inRange),
      List.mem_range.mpr small, ?_⟩
    intro earlier before
    rw [Bool.not_eq_true']
    apply decide_eq_false
    intro test
    have inRangeToo := (dividerTest_iff (before.trans small)).mp test
    have same := inVcoRange_unique inRange inRangeToo
    omega
  rw [found]
  rfl

/-- Without a divider the loop leaves 128, with a code of zero. -/
theorem mixDivider_of_forall
    (none : ∀ exponent < 6, ¬ InVcoRange freq (2 ^ (exponent + 1))) :
    mixDivider ((freq + 500) / 1000) = (128, 0) := by
  rw [mixDivider_eq]
  have unfound :
      ((List.range 6).find? fun exponent =>
        decide
          (1770000 ≤ (freq + 500) / 1000 * UInt32.ofNat (2 ^ (exponent + 1)) ∧
            (freq + 500) / 1000 * UInt32.ofNat (2 ^ (exponent + 1)) <
              3540000)) = .none := by
    apply List.find?_eq_none.mpr
    intro exponent member
    have small := List.mem_range.mp member
    rw [decide_eq_true_eq, dividerTest_iff small]
    exact none exponent small
  rw [unfound]
  rfl

end Divider

section Fraction

/-- The value of `n_sdm` and the weight of its digit, with so many digits left. -/
theorem nSdm_toNat :
    ∀ left < 15,
      ((0x8000 : UInt32) >>> UInt32.ofNat left).toNat = 2 ^ (15 - left) ∧
        (32768 / (((0x8000 : UInt32) >>> UInt32.ofNat left) / 2)).toUInt16 =
          UInt16.ofNat (2 * 2 ^ left) := by
  decide

/--
The loop of the SDM calculator chooses the digits of a binary fraction; it
divides by zero when it is left with more than they can take.
-/
theorem sdmLoop_eq
    (pllRefKhz fra : UInt32)
    {shifts : Nat}
    (inside : shifts ≤ 15)
    (sum : Nat) :
    sdmLoop pllRefKhz shifts fra (UInt16.ofNat (2 * sum)) =
      match expand (2 * pllRefKhz).toNat 1 15 shifts fra.toNat sum with
      | none => Checked.fault .divisionByZero
      | some outcome => pure (UInt16.ofNat (2 * outcome.1)) := by
  induction shifts generalizing fra sum with
  | zero =>
      unfold sdmLoop expand
      by_cases more : 1 < fra
      · have moreNat : 1 < fra.toNat :=
          UInt32.lt_iff_toNat_lt.mp more
        rw [if_pos more, if_pos moreNat]
      · have enough : ¬ 1 < fra.toNat :=
          fun above => more (UInt32.lt_iff_toNat_lt.mpr above)
        rw [if_neg more, if_neg enough]
  | succ left inductionHypothesis =>
      rcases nSdm_toNat left inside with ⟨nSdm, weight⟩
      have part :
          (2 * pllRefKhz / ((0x8000 : UInt32) >>> UInt32.ofNat left)).toNat =
            (2 * pllRefKhz).toNat / 2 ^ (15 - left) := by
        rw [UInt32.toNat_div, nSdm]
      have added :
          UInt16.ofNat (2 * sum) +
              (32768 / (((0x8000 : UInt32) >>> UInt32.ofNat left) / 2)).toUInt16 =
            UInt16.ofNat (2 * (sum + 2 ^ left)) := by
        rw [weight, ← UInt16.ofNat_add, ← Nat.mul_add]
      unfold sdmLoop expand
      dsimp only
      by_cases more : 1 < fra
      · have moreNat : 1 < fra.toNat :=
          UInt32.lt_iff_toNat_lt.mp more
        rw [if_pos more, if_pos moreNat]
        by_cases fits : (2 * pllRefKhz).toNat / 2 ^ (15 - left) < fra.toNat
        · have smaller :
              2 * pllRefKhz / ((0x8000 : UInt32) >>> UInt32.ofNat left) < fra := by
            rw [UInt32.lt_iff_toNat_lt, part]
            exact fits
          have rest :
              (fra - 2 * pllRefKhz / ((0x8000 : UInt32) >>> UInt32.ofNat left)).toNat =
                fra.toNat - (2 * pllRefKhz).toNat / 2 ^ (15 - left) := by
            rw [UInt32.toNat_sub_of_le _ _ (UInt32.le_of_lt smaller), part]
          rw [if_pos smaller, if_pos fits, added]
          by_cases last : left = 0
          · rw [if_pos last, if_pos last]
          · rw [if_neg last, if_neg last,
              inductionHypothesis _ (by omega), rest]
        · have larger :
              ¬ 2 * pllRefKhz / ((0x8000 : UInt32) >>> UInt32.ofNat left) < fra := by
            rw [UInt32.lt_iff_toNat_lt, part]
            exact fits
          rw [if_neg larger, if_neg fits, inductionHypothesis _ (by omega)]
      · have enough : ¬ 1 < fra.toNat :=
          fun above => more (UInt32.lt_iff_toNat_lt.mpr above)
        rw [if_neg more, if_neg enough]

end Fraction

section Programming

variable {freq : UInt32} {before after : Priv}

/-- The fine tune bits that the chip reports to the next read. -/
def Priv.vcoFineTune (priv : Priv) : Byte :=
  (bitrev ((priv.bus.readAnswers priv.bus.reads).2 4) &&& 0x30) >>> 4

/-- What `r82xx_set_pll` does behind the fraction. -/
theorem lock_within :
    Within [0x12, 0x1a] (do
      if ← waitForLock then
        modify fun priv => { priv with hasLock := true }
        writeMasks [⟨0x1a, 0x08, 0x08⟩]
      else
        modify fun priv => { priv with hasLock := false }) := by
  have waits : Within [0x12, 0x1a] waitForLock := by
    refine read_within.runBind fun data => ?_
    split
    · exact Confined.runPure _
    · exact (writeMasks_within (by decide)).runBind fun _ =>
        read_within.runBind fun _ => Confined.runPure _
  refine waits.runBind fun locked => ?_
  split
  · exact (Confined.runModify (Priv.outside_hasLock _ _)).runBind fun _ =>
      writeMasks_within (by decide)
  · exact Confined.runModify (Priv.outside_hasLock _ _)

/-- What the chip holds when `r82xx_set_pll` has returned zero. -/
theorem setPll_programs
    (yields : Yields (setPll freq).run before (.ok ()) after) :
    (pllNint freq before.xtal).toNat ≤ nintLimit before.rafaelChip ∧
      after.bus.chip 0x10 &&& 0xe0 =
        tunedDivNum (mixDivider ((freq + 500) / 1000)).2 before.vcoFineTune
            (vcoPowerRef before.rafaelChip) <<< 5 &&& 0xe0 ∧
      after.bus.chip 0x14 = nintByte (pllNint freq before.xtal) ∧
      ∃ total final,
        expand (2 * ((before.xtal + 500) / 1000)).toNat 1 15 15
            (vcoFra freq before.xtal).toNat 0 =
          some (total, final) ∧
        after.bus.chip 0x16 =
          BitVec.ofNat 8 (UInt16.ofNat (2 * total) >>> 8).toNat ∧
        after.bus.chip 0x15 =
          BitVec.ofNat 8 (UInt16.ofNat (2 * total) &&& 0xff).toNat := by
  unfold setPll at yields
  rw [yields_run_bind_ok (yields_run_get.mpr ⟨rfl, rfl⟩)] at yields
  rcases parts_of_yields_ok yields with ⟨_, first, wrote, yields⟩
  have isFirst := writeMasks_ok wrote
  rcases parts_of_yields_ok yields with ⟨data, second, readData, yields⟩
  rcases read_ok readData with ⟨isData, isSecond⟩
  rcases parts_of_yields_ok yields with ⟨_, third, wrote, yields⟩
  have isThird := writeMasks_ok wrote
  have fineTune :
      (data 4 &&& 0x30) >>> 4 = before.vcoFineTune := by
    rw [isData, isFirst]
    rfl
  have divider :
      third.bus.chip 0x10 &&& 0xe0 =
        tunedDivNum (mixDivider ((freq + 500) / 1000)).2 before.vcoFineTune
            (vcoPowerRef before.rafaelChip) <<< 5 &&& 0xe0 := by
    rw [isThird, masked_chip _ (by simp [Shadowed]) (by simp), ← fineTune]
    exact merge_and_mask _ _ _
  split at yields
  · exact absurd yields not_yields_run_fault
  split at yields
  · cases (yields_run_throw.mp yields).1
  rename_i inLimit
  rcases parts_of_yields_ok yields with ⟨_, fourth, wrote, yields⟩
  have isFourth := write_ok wrote
  rcases parts_of_yields_ok yields with ⟨_, fifth, wrote, yields⟩
  have isFifth := writeMasks_ok wrote
  rcases parts_of_yields_ok yields with ⟨sdm, sixth, loops, yields⟩
  change Yields (sdmLoop _ 15 _ (UInt16.ofNat (2 * 0))).run _ _ _ at loops
  rw [sdmLoop_eq _ _ (Nat.le_refl 15) 0] at loops
  rcases parts_of_yields_ok yields with ⟨_, seventh, wrote, yields⟩
  have isSeventh := write_ok wrote
  rcases parts_of_yields_ok yields with ⟨_, eighth, wrote, yields⟩
  have isEighth := write_ok wrote
  have kept :
      ∀ reg, reg ∉ [0x12, 0x1a] → after.bus.chip reg = eighth.bus.chip reg :=
    fun reg outside => lock_within.chip yields outside
  cases expanded :
      expand (2 * ((before.xtal + 500) / 1000)).toNat 1 15 15
        (vcoFra freq before.xtal).toNat 0 with
  | none =>
      rw [expanded] at loops
      exact absurd loops not_yields_run_fault
  | some outcome =>
      rw [expanded] at loops
      rcases yields_run_pure.mp loops with ⟨isSdm, rfl⟩
      cases isSdm
      have beforeFraction :
          ∀ reg, reg ≠ 0x12 → reg ≠ 0x15 → reg ≠ 0x16 →
            eighth.bus.chip reg = fourth.bus.chip reg := by
        intro reg not12 not15 not16
        rw [isEighth, chip_written, Function.update_of_ne not15, isSeventh,
          chip_written, Function.update_of_ne not16, isFifth,
          masked_chip_of_untouched _ (by simpa using not12.symm)]
      refine ⟨Nat.le_of_not_lt inLimit, ?_, ?_, outcome.1, outcome.2, rfl,
        ?_, ?_⟩
      · rw [kept 0x10 (by decide),
          beforeFraction 0x10 (by decide) (by decide) (by decide), isFourth,
          chip_written, Function.update_of_ne (by decide)]
        exact divider
      · rw [kept 0x14 (by decide),
          beforeFraction 0x14 (by decide) (by decide) (by decide), isFourth,
          chip_written, Function.update_self]
      · rw [kept 0x16 (by decide), isEighth, chip_written,
          Function.update_of_ne (by decide), isSeventh, chip_written,
          Function.update_self]
      · rw [kept 0x15 (by decide), isEighth, chip_written,
          Function.update_self]

/-- When every transfer succeeds, the function knows in the end whether the PLL has locked. -/
theorem waitForLock_done_returns
    (done : before.AllDone) :
    ∃ locked, Returns waitForLock.run before (.ok locked) Priv.AllDone := by
  rcases done.read 0x00 with ⟨first, looked, firstDone⟩
  unfold waitForLock
  by_cases locks :
      pllLocked (fun index =>
        bitrev ((before.bus.readAnswers before.bus.reads).2 index)) = true
  · refine ⟨true, first, (yields_run_bind_ok looked).mpr ?_, firstDone⟩
    rw [if_pos locks]
    exact yields_run_pure.mpr ⟨rfl, rfl⟩
  · have shadowed :
        ∀ write ∈ [(⟨0x12, 0x06, 0xff⟩ : MaskedWrite Nat 8)],
          Shadowed write.reg := by
      simp [Shadowed]
    rcases firstDone.writeMasks shadowed with ⟨second, wrote, secondDone⟩
    rcases secondDone.read 0x00 with ⟨third, lookedAgain, thirdDone⟩
    refine ⟨pllLocked fun index =>
        bitrev ((second.bus.readAnswers second.bus.reads).2 index),
      third, (yields_run_bind_ok looked).mpr ?_, thirdDone⟩
    rw [if_neg locks]
    exact (yields_run_bind_ok wrote).mpr
      ((yields_run_bind_ok lookedAgain).mpr (yields_run_pure.mpr ⟨rfl, rfl⟩))

/-- When every transfer succeeds, values that the PLL takes are programmed. -/
theorem setPll_done_returns
    (done : before.AllDone)
    (positive : 2 * before.xtal ≠ 0)
    (inLimit :
      (pllNint freq before.xtal).toNat ≤ nintLimit before.rafaelChip)
    (fraction :
      ∃ outcome,
        expand (2 * ((before.xtal + 500) / 1000)).toNat 1 15 15
            (vcoFra freq before.xtal).toNat 0 =
          some outcome) :
    Returns (setPll freq).run before (.ok ()) Priv.AllDone := by
  rcases fraction with ⟨outcome, expanded⟩
  unfold setPll
  apply Returns.runGetBind
  apply Returns.runBind (done.writeMasks (by simp [Shadowed]))
  intro _ done
  apply Returns.runBind (done.read 0x00)
  intro _ done
  apply Returns.runBind (done.writeMasks (by simp [Shadowed]))
  intro _ done
  rw [if_neg positive, if_neg (Nat.not_lt.mpr inLimit)]
  apply Returns.runBind (done.writeReg 0x14 _)
  intro _ done
  apply Returns.runBind (done.writeMasks (by simp [Shadowed]))
  intro _ done
  have loops :=
    sdmLoop_eq ((before.xtal + 500) / 1000) (vcoFra freq before.xtal)
      (Nat.le_refl 15) 0
  rw [expanded] at loops
  change Returns
    (sdmLoop _ 15 _ (UInt16.ofNat (2 * 0)) >>= _).run _ _ _
  rw [loops]
  apply Returns.runBind (Returns.runPure done)
  intro _ done
  apply Returns.runBind (done.writeReg 0x16 _)
  intro _ done
  apply Returns.runBind (done.writeReg 0x15 _)
  intro _ done
  rcases waitForLock_done_returns done with ⟨locked, waits⟩
  apply Returns.runBind waits
  intro _ done
  have noted :
      ∀ {priv : Priv} (locked : Bool), priv.AllDone →
        ({ priv with hasLock := locked } : Priv).AllDone :=
    fun _ done => ⟨done.writes, done.reads⟩
  split
  · apply Returns.runBind (Returns.runModify (noted true done))
    intro _ done
    exact done.writeMasks (by simp [Shadowed])
  · exact Returns.runModify (noted false done)

end Programming

end LibRtlSdr.R82xx
