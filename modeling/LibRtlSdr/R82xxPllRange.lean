import LibRtlSdr.R82xxPll
import Mathlib.Tactic.Linarith

namespace LibRtlSdr.R82xx

open DriverProgram GreedyFraction MaskedWrites

/-!
# What the PLL is programmed to

In the range of the VCO the programmed frequency is right to 20 kHz.  Out of it
the divider loop leaves a divider of 128, and the call may program the PLL all
the same.
-/

/-- `nint` as register 0x14 holds it. -/
def decodedNint (ni : Byte) : Nat :=
  13 + 4 * (ni &&& 0x3f).toNat + (ni >>> 6).toNat

/-- The SDM value of registers 0x16 and 0x15. -/
def decodedSdm (chip : Nat → Byte) : Nat :=
  (chip 0x16).toNat * 256 + (chip 0x15).toNat

/-- The divider code of register 0x10. -/
def dividerCode (chip : Nat → Byte) : Nat :=
  (chip 0x10 >>> 5).toNat

section Values

variable {freq pllRef : UInt32}

/-- The whole part is encoded without loss, from 13 on. -/
theorem decodedNint_nintByte :
    ∀ nint : Byte, 13 ≤ nint.toNat → decodedNint (nintByte nint) = nint.toNat := by
  decide +kernel

/-- The two bytes of the SDM value. -/
theorem decodedSdm_eq
    {chip : Nat → Byte}
    {sdm : Nat}
    (small : sdm < 65536)
    (high : chip 0x16 = BitVec.ofNat 8 (UInt16.ofNat sdm >>> 8).toNat)
    (low : chip 0x15 = BitVec.ofNat 8 (UInt16.ofNat sdm &&& 0xff).toNat) :
    decodedSdm chip = sdm := by
  have value : (UInt16.ofNat sdm).toNat = sdm :=
    UInt16.toNat_ofNat_of_lt small
  have highValue : (UInt16.ofNat sdm >>> 8).toNat = sdm / 256 := by
    rw [UInt16.toNat_shiftRight, value]
    exact Nat.shiftRight_eq_div_pow sdm 8
  have lowValue : (UInt16.ofNat sdm &&& 0xff).toNat = sdm % 256 := by
    rw [UInt16.toNat_and, value]
    exact Nat.and_two_pow_sub_one_eq_mod sdm 8
  unfold decodedSdm
  rw [high, low, highValue, lowValue, BitVec.toNat_ofNat, BitVec.toNat_ofNat]
  omega

/-- The VCO frequency does not overflow its 64 bits. -/
theorem vcoFreq_toNat
    {mixDiv : Nat}
    (divider : (mixDivider ((freq + 500) / 1000)).1.toNat = mixDiv)
    (small : mixDiv ≤ 128) :
    (vcoFreq freq).toNat = freq.toNat * mixDiv := by
  unfold vcoFreq
  rw [UInt64.toNat_mul, UInt32.toNat_toUInt64, UInt32.toNat_toUInt64, divider]
  apply Nat.mod_eq_of_lt
  have bound := freq.toNat_lt
  calc
    freq.toNat * mixDiv ≤ 2 ^ 32 * 128 :=
      Nat.mul_le_mul bound.le small
    _ < 2 ^ 64 := by decide

/-- Twice the reference does not overflow. -/
theorem twice_toNat
    (small : pllRef.toNat < 2 ^ 31) :
    (2 * pllRef).toNat = 2 * pllRef.toNat := by
  rw [UInt32.toNat_mul]
  apply Nat.mod_eq_of_lt
  change 2 * pllRef.toNat < 2 ^ 32
  omega

/-- The whole number of reference periods, cut to eight bits. -/
theorem pllNint_toNat
    (small : pllRef.toNat < 2 ^ 31) :
    (pllNint freq pllRef).toNat =
      (vcoFreq freq).toNat / (2 * pllRef.toNat) % 256 := by
  unfold pllNint
  rw [BitVec.toNat_ofNat, UInt64.toNat_div, UInt32.toNat_toUInt64,
    twice_toNat small]

/-- The rest in kHz, when the whole number is not cut. -/
theorem vcoFra_toNat
    (small : pllRef.toNat < 2 ^ 31)
    (uncut : (vcoFreq freq).toNat / (2 * pllRef.toNat) < 256)
    (fits : (vcoFreq freq).toNat < 2 ^ 32) :
    (vcoFra freq pllRef).toNat =
      (vcoFreq freq).toNat % (2 * pllRef.toNat) / 1000 := by
  have nint :
      (pllNint freq pllRef).toNat =
        (vcoFreq freq).toNat / (2 * pllRef.toNat) := by
    rw [pllNint_toNat small, Nat.mod_eq_of_lt uncut]
  have whole :
      2 * pllRef.toNat * ((vcoFreq freq).toNat / (2 * pllRef.toNat)) ≤
        (vcoFreq freq).toNat :=
    Nat.mul_div_le _ _
  have product :
      (2 * pllRef * UInt32.ofNat (pllNint freq pllRef).toNat).toNat =
        2 * pllRef.toNat * ((vcoFreq freq).toNat / (2 * pllRef.toNat)) := by
    rw [UInt32.toNat_mul, twice_toNat small, nint,
      UInt32.toNat_ofNat_of_lt' (by
        change _ < 2 ^ 32
        omega)]
    exact Nat.mod_eq_of_lt (by omega)
  unfold vcoFra
  rw [UInt64.toNat_toUInt32, UInt64.toNat_div, UInt64.toNat_sub_of_le _ _ (by
    rw [UInt64.le_iff_toNat_le, UInt32.toNat_toUInt64, product]
    exact whole), UInt32.toNat_toUInt64, product]
  have rest := Nat.mod_add_div (vcoFreq freq).toNat (2 * pllRef.toNat)
  have remainder :
      (vcoFreq freq).toNat -
          2 * pllRef.toNat * ((vcoFreq freq).toNat / (2 * pllRef.toNat)) =
        (vcoFreq freq).toNat % (2 * pllRef.toNat) := by
    omega
  rw [remainder]
  have bound : (1000 : UInt64).toNat = 1000 :=
    rfl
  have less := Nat.mod_le (vcoFreq freq).toNat (2 * pllRef.toNat)
  rw [bound]
  exact Nat.mod_eq_of_lt (by omega)

/--
The fraction stands for the rest up to 20 kHz: 1 kHz for each digit, for the
rounded reference and for the rounded rest, and what is left over.
-/
theorem fraction_error
    {ref rest total final : Nat}
    (small : 2 * ((ref + 500) / 1000) / 2 ^ 15 ≤ 1)
    (expands :
      Expands (2 * ((ref + 500) / 1000)) 1 15 15 (rest / 1000) total final) :
    |(2 * ref * (2 * total) : Int) - 65536 * rest| ≤ 65536 * 20000 := by
  have leftover : final ≤ 16 := by
    rcases expands.leftover with little | little
    · omega
    · omega
  have bounded := expands.bounded
  have lower := expands.lower
  have upper := expands.upper
  have reference := Nat.div_add_mod (ref + 500) 1000
  have modulus := Nat.mod_lt (ref + 500) (by decide : 0 < 1000)
  generalize (ref + 500) / 1000 = khz at *
  generalize (ref + 500) % 1000 = excess at *
  -- Each unit of the sum counts the reference, rounded to kHz or not.
  have scaled :
      2 * ref * total + 1000 * total =
        1000 * (2 * khz * total) + 2 * (excess * total) := by
    have doubled : 2 * ref + 1000 = 1000 * (2 * khz) + 2 * excess := by
      omega
    calc
      2 * ref * total + 1000 * total = (2 * ref + 1000) * total := by ring
      _ = (1000 * (2 * khz) + 2 * excess) * total := by rw [doubled]
      _ = 1000 * (2 * khz * total) + 2 * (excess * total) := by ring
  have excessBound : excess * total ≤ 999 * total :=
    Nat.mul_le_mul_right total (Nat.le_of_lt_succ modulus)
  have product : (2 * ref * (2 * total) : Int) = 2 * ((2 * ref * total : Nat) : Int) := by
    push_cast
    ring
  rw [product, abs_le]
  constructor <;>
    omega

end Values

section Accuracy

variable {freq : UInt32} {before after : Priv}

/-- The reference of a crystal with a small correction. -/
theorem reference_bounds
    {clock pllRef : UInt32}
    {ppm : Int}
    {chip : Chip}
    (clocked : pllRef = RtlSdr.applyPpmCorr clock ppm)
    (crystal : clock = 28800000 ∨ clock = 16000000 ∧ chip = .r828d)
    (small : -1000 ≤ ppm ∧ ppm ≤ 1000) :
    28771200 ≤ pllRef.toNat ∧ pllRef.toNat ≤ 28828800 ∨
      (15984000 ≤ pllRef.toNat ∧ pllRef.toNat ≤ 16016000) ∧ chip = .r828d := by
  rcases crystal with rfl | ⟨rfl, isR828d⟩
  · have hertz : (28800000 : UInt32).toNat = 28800000 :=
      rfl
    have value :=
      @RtlSdr.applyPpmCorr_toNat 28800000 ppm (by rw [hertz]; omega)
        (by rw [hertz]; omega)
    rw [hertz, ← clocked] at value
    exact .inl (by omega)
  · have hertz : (16000000 : UInt32).toNat = 16000000 :=
      rfl
    have value :=
      @RtlSdr.applyPpmCorr_toNat 16000000 ppm (by rw [hertz]; omega)
        (by rw [hertz]; omega)
    rw [hertz, ← clocked] at value
    exact .inr ⟨by omega, isR828d⟩

/-- A divider of the VCO is the one that the loop chooses. -/
theorem exists_divider
    (low : 27656500 ≤ freq.toNat)
    (high : freq.toNat ≤ 1769999499) :
    ∃ exponent < 6,
      InVcoRange freq (2 ^ (exponent + 1)) ∧
        mixDivider ((freq + 500) / 1000) = dividerAt exponent ∧
        (dividerAt exponent).1.toNat = 2 ^ (exponent + 1) := by
  rcases exists_inVcoRange_iff.mpr ⟨low, high⟩ with ⟨exponent, small, inRange⟩
  refine ⟨exponent, small, inRange, mixDivider_of_inVcoRange small inRange, ?_⟩
  interval_cases exponent <;>
    rfl

/-- The dividers are the powers of two up to 64. -/
theorem mem_dividers_iff
    {mixDiv : Nat} :
    mixDiv ∈ [2, 4, 8, 16, 32, 64] ↔
      ∃ exponent < 6, mixDiv = 2 ^ (exponent + 1) := by
  constructor
  · intro member
    simp only [List.mem_cons, List.not_mem_nil, or_false] at member
    rcases member with rfl | rfl | rfl | rfl | rfl | rfl
    · exact ⟨0, by decide, rfl⟩
    · exact ⟨1, by decide, rfl⟩
    · exact ⟨2, by decide, rfl⟩
    · exact ⟨3, by decide, rfl⟩
    · exact ⟨4, by decide, rfl⟩
    · exact ⟨5, by decide, rfl⟩
  · rintro ⟨exponent, small, rfl⟩
    interval_cases exponent <;>
      decide

/-- The frequency of the VCO, from the kHz that the divider was chosen for. -/
theorem vco_bounds
    {exponent : Nat}
    (small : exponent < 6)
    (inRange : InVcoRange freq (2 ^ (exponent + 1))) :
    1769968000 ≤ freq.toNat * 2 ^ (exponent + 1) ∧
      freq.toNat * 2 ^ (exponent + 1) ≤ 3540032000 := by
  rcases inRange with ⟨low, high⟩
  interval_cases exponent <;>
    omega

/-- The whole part for a reference fits its bits and passes the limit of the chip. -/
theorem nint_bounds
    {ref vco : Nat}
    {chip : Chip}
    (reference :
      28771200 ≤ ref ∧ ref ≤ 28828800 ∨
        (15984000 ≤ ref ∧ ref ≤ 16016000) ∧ chip = .r828d)
    (range : 1769968000 ≤ vco ∧ vco ≤ 3540032000) :
    13 ≤ vco / (2 * ref) ∧
      vco / (2 * ref) < 256 ∧ vco / (2 * ref) ≤ nintLimit chip := by
  have within :
      ∀ {low high : Nat}, 0 < ref → low * (2 * ref) ≤ vco →
        vco < (high + 1) * (2 * ref) →
        low ≤ vco / (2 * ref) ∧ vco / (2 * ref) ≤ high := by
    intro low high positive above below
    exact ⟨(Nat.le_div_iff_mul_le (by omega)).mpr above,
      Nat.le_of_lt_succ ((Nat.div_lt_iff_lt_mul (by omega)).mpr below)⟩
  rcases reference with fast | ⟨slow, rfl⟩
  · have limit : 63 ≤ nintLimit chip := by
      cases chip <;>
        decide
    have bounds : 13 ≤ vco / (2 * ref) ∧ vco / (2 * ref) ≤ 63 :=
      within (by omega) (by omega) (by omega)
    omega
  · have limit : nintLimit .r828d = 127 := by
      decide
    have bounds : 13 ≤ vco / (2 * ref) ∧ vco / (2 * ref) ≤ 127 :=
      within (by omega) (by omega) (by omega)
    omega

/-- The reference in kHz, twice. -/
theorem twiceKhz_toNat
    {pllRef : UInt32}
    (small : pllRef.toNat < 2 ^ 31) :
    (2 * ((pllRef + 500) / 1000)).toNat = 2 * ((pllRef.toNat + 500) / 1000) := by
  have khz : ((pllRef + 500) / 1000).toNat = (pllRef.toNat + 500) / 1000 := by
    rw [UInt32.toNat_div, UInt32.toNat_add]
    change (pllRef.toNat + 500) % 2 ^ 32 / 1000 = _
    rw [Nat.mod_eq_of_lt (by omega)]
  rw [twice_toNat (by rw [khz]; omega), khz]

/-- What the integer part leaves over of a frequency is compared with the fraction. -/
theorem scaled_difference
    {freq mixDiv ref nint : Nat}
    (whole : nint = freq * mixDiv / (2 * ref))
    (added : Nat) :
    (2 * ref * (65536 * nint + (2 * added : Nat)) : Int) -
        65536 * (freq * mixDiv) =
      2 * ref * (2 * added) - 65536 * (freq * mixDiv % (2 * ref) : Nat) := by
  have splits : 2 * ref * nint + freq * mixDiv % (2 * ref) = freq * mixDiv := by
    rw [whole]
    exact Nat.div_add_mod _ _
  have splitsInt :
      (freq * mixDiv : Int) =
        2 * ref * nint + (freq * mixDiv % (2 * ref) : Nat) := by
    exact_mod_cast splits.symm
  rw [splitsInt]
  push_cast
  ring

/--
With a reference of 28.8 MHz, or of 16 MHz on an R828D, corrected by at most
1000 ppm, every frequency in the range of the VCO is programmed with the one
divider that belongs to it, and to 20 kHz of the VCO frequency.  The error is
stated in 1/65536 Hz, the unit of the fraction.
-/
theorem setPll_accurate
    (done : before.AllDone)
    {clock : UInt32}
    {ppm : Int}
    (clocked : before.xtal = RtlSdr.applyPpmCorr clock ppm)
    (crystal :
      clock = 28800000 ∨ clock = 16000000 ∧ before.rafaelChip = .r828d)
    (small : -1000 ≤ ppm ∧ ppm ≤ 1000)
    (low : 27656500 ≤ freq.toNat)
    (high : freq.toNat ≤ 1769999499) :
    ∃ mixDiv,
      ((mixDiv ∈ [2, 4, 8, 16, 32, 64] ∧ InVcoRange freq mixDiv) ∧
        ∀ other, other ∈ [2, 4, 8, 16, 32, 64] → InVcoRange freq other →
          other = mixDiv) ∧
        (mixDivider ((freq + 500) / 1000)).1.toNat = mixDiv ∧
        (pllNint freq before.xtal).toNat =
          freq.toNat * mixDiv / (2 * before.xtal.toNat) ∧
        13 ≤ (pllNint freq before.xtal).toNat ∧
        (pllNint freq before.xtal).toNat ≤ nintLimit before.rafaelChip ∧
        ∃ after,
          Yields (setPll freq).run before (.ok ()) after ∧
            decodedNint (after.bus.chip 0x14) =
              (pllNint freq before.xtal).toNat ∧
            decodedSdm after.bus.chip ≤ 65534 ∧
            |(2 * before.xtal.toNat *
                  (65536 * (pllNint freq before.xtal).toNat +
                    decodedSdm after.bus.chip) : Int) -
                65536 * (freq.toNat * mixDiv)| ≤
              65536 * 20000 := by
  rcases exists_divider low high with
    ⟨exponent, inTable, inRange, chosen, power⟩
  have reference := reference_bounds clocked crystal small
  have vco := vco_bounds inTable inRange
  have powerSmall : 2 ^ (exponent + 1) ≤ 128 :=
    (Nat.pow_le_pow_right (by decide) (by omega : exponent + 1 ≤ 6)).trans
      (by decide)
  have divider :
      (mixDivider ((freq + 500) / 1000)).1.toNat = 2 ^ (exponent + 1) := by
    rw [chosen, power]
  have vcoValue := vcoFreq_toNat divider powerSmall
  have refSmall : before.xtal.toNat < 2 ^ 31 := by
    omega
  rcases nint_bounds reference vco with ⟨enough, uncut, inLimit⟩
  have nint :
      (pllNint freq before.xtal).toNat =
        freq.toNat * 2 ^ (exponent + 1) / (2 * before.xtal.toNat) := by
    rw [pllNint_toNat refSmall, vcoValue, Nat.mod_eq_of_lt uncut]
  have fra :
      (vcoFra freq before.xtal).toNat =
        freq.toNat * 2 ^ (exponent + 1) % (2 * before.xtal.toNat) / 1000 := by
    rw [← vcoValue] at uncut ⊢
    exact vcoFra_toNat refSmall uncut (by omega)
  have lastPart : 2 * ((before.xtal.toNat + 500) / 1000) / 2 ^ 15 ≤ 1 := by
    omega
  have expands :
      ∃ outcome,
        expand (2 * ((before.xtal + 500) / 1000)).toNat 1 15 15
          (vcoFra freq before.xtal).toNat 0 = some outcome := by
    rw [twiceKhz_toNat refSmall]
    exact expand_isSome lastPart (.inl (by decide))
  rw [← nint] at enough inLimit
  have positive : 2 * before.xtal ≠ 0 := by
    intro zero
    have value := twice_toNat refSmall
    rw [zero] at value
    change 0 = 2 * before.xtal.toNat at value
    omega
  rcases setPll_done_returns done positive inLimit expands with
    ⟨after, yields, _⟩
  rcases setPll_programs yields with
    ⟨_, _, whole, total, final, expanded, highByte, lowByte⟩
  rw [twiceKhz_toNat refSmall, fra] at expanded
  have modulus :
      freq.toNat * 2 ^ (exponent + 1) % (2 * before.xtal.toNat) <
        2 * before.xtal.toNat :=
    Nat.mod_lt _ (by omega)
  have bounded :
      freq.toNat * 2 ^ (exponent + 1) % (2 * before.xtal.toNat) / 1000 ≤
        2 * ((before.xtal.toNat + 500) / 1000) / 2 ^ (15 - 15) + (15 - 15) := by
    omega
  rcases expand_expands (Nat.le_refl 15) bounded expanded with
    ⟨added, isTotal, expands⟩
  rw [isTotal, Nat.zero_add] at highByte lowByte
  have addedSmall : added < 32768 :=
    expands.bounded
  have sdm := decodedSdm_eq (by omega) highByte lowByte
  have error := fraction_error lastPart expands
  refine ⟨2 ^ (exponent + 1), ⟨⟨mem_dividers_iff.mpr ⟨exponent, inTable, rfl⟩,
    inRange⟩, ?_⟩, divider, nint, enough, inLimit, after, yields, ?_, ?_, ?_⟩
  · intro other member inRangeToo
    rcases mem_dividers_iff.mp member with ⟨otherExponent, _, rfl⟩
    rw [inVcoRange_unique inRangeToo inRange]
  · rw [whole]
    exact decodedNint_nintByte _ enough
  · rw [sdm]
    omega
  · rw [sdm, scaled_difference nint]
    exact error

/-- 100 MHz is programmed to 20 kHz. -/
theorem setPll_accurate_poweredTuner :
    ∃ after,
      Yields (setPll 100000000).run poweredTuner (.ok ()) after ∧
        decodedSdm after.bus.chip ≤ 65534 := by
  have done : poweredTuner.AllDone := ⟨fun _ => rfl, fun _ => rfl⟩
  have clocked : poweredTuner.xtal = RtlSdr.applyPpmCorr 28800000 0 := by
    decide
  rcases @setPll_accurate 100000000 poweredTuner done 28800000 0 clocked
    (.inl rfl) (by decide) (by decide) (by decide) with
    ⟨_, _, _, _, _, _, after, yields, _, sdm, _⟩
  exact ⟨after, yields, sdm⟩

end Accuracy

section Refusal

variable {freq : UInt32} {before after : Priv}

/-- The divider code is the low three bits of the number that is shifted up. -/
theorem dividerCode_eq
    {chip : Nat → Byte}
    {divNum : Byte}
    (programmed : chip 0x10 &&& (0xe0 : Byte) = divNum <<< 5 &&& 0xe0) :
    dividerCode chip = divNum.toNat % 8 := by
  have high : ∀ reg : Byte, reg >>> 5 = (reg &&& 0xe0) >>> 5 := by
    decide +kernel
  have low :
      ∀ number : Byte,
        ((number <<< 5 &&& 0xe0) >>> 5).toNat = number.toNat % 8 := by
    decide +kernel
  unfold dividerCode
  rw [high, programmed, low]

/-- The correction of a code by one wraps only below zero. -/
theorem tunedDivNum_near_iff
    {exponent : Nat}
    (small : exponent < 6)
    (fineTune powerRef : Byte) :
    (((tunedDivNum (BitVec.ofNat 8 exponent) fineTune powerRef).toNat % 8 :
          Nat) - (exponent : Int)).natAbs ≤ 1 ↔
      (exponent = 0 → fineTune ≤ powerRef) := by
  unfold tunedDivNum
  rw [BitVec.le_def]
  by_cases above : powerRef < fineTune
  · have strictly := BitVec.lt_def.mp above
    rw [if_pos above]
    interval_cases exponent <;>
      simp
    exact strictly
  · have notAbove := Nat.le_of_not_lt fun less => above (BitVec.lt_def.mpr less)
    rw [if_neg above]
    by_cases below : fineTune < powerRef
    · rw [if_pos below]
      interval_cases exponent <;>
        simp
      exact notAbove
    · rw [if_neg below]
      interval_cases exponent <;>
        simp
      exact notAbove

/--
With a reference of 28.8 MHz a call that returns zero, with a lock or without
one, has programmed a divider of the VCO range, its whole part and its code,
exactly if the frequency is in that range, and the fine tune bits do not ask for
less than the smallest code.
-/
theorem setPll_in_range_iff
    (clocked : before.xtal = 28800000)
    (yields : Yields (setPll freq).run before (.ok ()) after) :
    (∃ mixDiv ∈ [2, 4, 8, 16, 32, 64],
      InVcoRange freq mixDiv ∧
        decodedNint (after.bus.chip 0x14) =
          freq.toNat * mixDiv / (2 * 28800000) ∧
        ((dividerCode after.bus.chip : Int) -
            ((Nat.log2 mixDiv : Int) - 1)).natAbs ≤ 1) ↔
      (27656500 ≤ freq.toNat ∧ freq.toNat ≤ 1769999499) ∧
        (884999500 ≤ freq.toNat →
          before.vcoFineTune ≤ vcoPowerRef before.rafaelChip) := by
  rcases setPll_programs yields with ⟨_, code, whole, _⟩
  have decided :
      ∀ {exponent : Nat}, exponent < 6 → InVcoRange freq (2 ^ (exponent + 1)) →
        (((dividerCode after.bus.chip : Int) -
              ((Nat.log2 (2 ^ (exponent + 1)) : Int) - 1)).natAbs ≤ 1 ↔
          (884999500 ≤ freq.toNat →
            before.vcoFineTune ≤ vcoPowerRef before.rafaelChip)) := by
    intro exponent small inRange
    have logarithm : ((Nat.log2 (2 ^ (exponent + 1)) : Int) - 1) = exponent := by
      rw [Nat.log2_two_pow]
      omega
    have fast : 884999500 ≤ freq.toNat ↔ exponent = 0 := by
      rcases inRange with ⟨low, high⟩
      interval_cases exponent <;>
        omega
    have divider : (mixDivider ((freq + 500) / 1000)).2 = BitVec.ofNat 8 exponent := by
      rw [mixDivider_of_inVcoRange small inRange]
      rfl
    rw [divider] at code
    rw [logarithm, dividerCode_eq code, tunedDivNum_near_iff small, fast]
  constructor
  · rintro ⟨mixDiv, member, inRange, _, near⟩
    rcases mem_dividers_iff.mp member with ⟨exponent, small, rfl⟩
    exact ⟨exists_inVcoRange_iff.mp ⟨exponent, small, inRange⟩,
      (decided small inRange).mp near⟩
  · rintro ⟨⟨low, high⟩, fineTune⟩
    rcases exists_divider low high with
      ⟨exponent, small, inRange, chosen, power⟩
    have vco := vco_bounds small inRange
    have divider :
        (mixDivider ((freq + 500) / 1000)).1.toNat = 2 ^ (exponent + 1) := by
      rw [chosen, power]
    have powerSmall : 2 ^ (exponent + 1) ≤ 128 :=
      (Nat.pow_le_pow_right (by decide) (by omega : exponent + 1 ≤ 6)).trans
        (by decide)
    have reference : before.xtal.toNat = 28800000 := by
      rw [clocked]
      rfl
    rcases @nint_bounds 28800000 _ before.rafaelChip (.inl (by decide)) vco with
      ⟨enough, uncut, _⟩
    have nint :
        (pllNint freq before.xtal).toNat =
          freq.toNat * 2 ^ (exponent + 1) / (2 * 28800000) := by
      rw [pllNint_toNat (by omega), vcoFreq_toNat divider powerSmall,
        reference, Nat.mod_eq_of_lt uncut]
    refine ⟨2 ^ (exponent + 1), mem_dividers_iff.mpr ⟨exponent, small, rfl⟩,
      inRange, ?_, (decided small inRange).mpr fineTune⟩
    rw [whole, ← nint]
    exact decodedNint_nintByte _ (by omega)

/-- An R820T whose PLL locks at once, with the smallest fine tune value. -/
def lockingTuner : Priv :=
  { poweredTuner with
    bus :=
      { poweredTuner.bus with readAnswers := fun _ => (.done, fun _ => 0x02) } }

/-- 100 MHz is in the range of the VCO. -/
theorem setPll_in_range_iff_lockingTuner :
    ∃ after,
      Yields (setPll 100000000).run lockingTuner (.ok ()) after ∧
        ∃ mixDiv ∈ [2, 4, 8, 16, 32, 64], InVcoRange 100000000 mixDiv := by
  have runs : ∃ answer after,
      Yields (setPll 100000000).run lockingTuner answer after ∧
        answer.toOption = some () :=
    exists_yields (fun (answer : Except Int32 Unit) _ => answer.toOption)
      (by decide +kernel)
  rcases runs with ⟨answer, after, yields, ok⟩
  cases answer with
  | error code =>
      cases ok
  | ok nothing =>
      rcases (setPll_in_range_iff rfl yields).mpr (by decide) with
        ⟨mixDiv, member, inRange, _⟩
      exact ⟨after, yields, mixDiv, member, inRange⟩

/--
An R820T that is tuned to 24 MHz with an intermediate frequency of 3.57 MHz: no
divider reaches the VCO, and the PLL is programmed and locks all the same.
-/
theorem setPll_out_of_range :
    ∃ after,
      Yields (setPll (24000000 + 3570000)).run lockingTuner (.ok ()) after ∧
        after.hasLock = true ∧
        decodedNint (after.bus.chip 0x14) = 61 ∧
        ¬ ∃ mixDiv ∈ [2, 4, 8, 16, 32, 64], InVcoRange (24000000 + 3570000) mixDiv := by
  have runs : ∃ answer after,
      Yields (setPll (24000000 + 3570000)).run lockingTuner answer after ∧
        (answer.toOption, after.hasLock, decodedNint (after.bus.chip 0x14)) =
          (some (), true, 61) :=
    exists_yields
      (fun (answer : Except Int32 Unit) (after : Priv) =>
        (answer.toOption, after.hasLock, decodedNint (after.bus.chip 0x14)))
      (by decide +kernel)
  rcases runs with ⟨answer, after, yields, seen⟩
  rcases Prod.mk.inj seen with ⟨ok, seen⟩
  rcases Prod.mk.inj seen with ⟨locked, nint⟩
  cases answer with
  | error code =>
      cases ok
  | ok nothing =>
      refine ⟨after, yields, locked, nint, ?_⟩
      rintro ⟨mixDiv, member, inRange⟩
      rcases mem_dividers_iff.mp member with ⟨exponent, small, rfl⟩
      have low := (exists_inVcoRange_iff.mp ⟨exponent, small, inRange⟩).1
      exact absurd low (by decide)

end Refusal

end LibRtlSdr.R82xx
