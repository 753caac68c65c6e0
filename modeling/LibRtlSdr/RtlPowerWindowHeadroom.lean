import LibRtlSdr.RtlPowerWindowGroups

namespace LibRtlSdr.RtlPower

/-!
# The headroom before the window

Where the extremes of a channel fit an `int16_t`, all its values behind `remove_dc` are
between them.  And a coefficient of 2 or more that leaves no room for an extreme leaves
none for a value that a captured buffer has.
-/

open Finset (range)

/-! ## The values before the window -/

/-- A group without its mean, before it becomes an `int16_t`. -/
def difference (fftBuf : Nat → Int16) (ds n channel k : Nat) : Int :=
  groupSum (samples fftBuf channel) ds k n -
    (total (samples fftBuf channel) (covered (2 * n) ds channel)).tdiv
      (dcLength (2 * n) ds channel)

section Values

variable {fftBuf out : Nat → Int16} {ds n channel : Nat}

section Lengths

variable (positive : 0 < ds)

include positive

/-- The lengths of a buffer of 8192 samples or more, in groups that fit. -/
theorem dcLength_bounds
    (few : ds ≤ 255)
    (long : 8192 ≤ n)
    (isChannel : channel < 2) :
    63 ≤ dcLength (2 * n) ds channel ∧
      (dcLength (2 * n) ds channel + 1) / 2 ≤ n ∧
      3 * ds ≤ covered (2 * n) ds channel := by
  have least : 64 ≤ 2 * n / ds := by
    rw [Nat.le_div_iff_mul_le positive]
    omega
  have most : 2 * n / ds ≤ 2 * n := Nat.div_le_self _ _
  have half : 2 * n / 2 = n := by omega
  have several : 3 ≤ (2 * n / ds - channel + 1) / 2 := by omega
  unfold covered dcLength
  rw [half]
  exact ⟨by omega, by omega, le_min (Nat.mul_le_mul_right ds several) (by omega)⟩

/-- The groups of a frame are whole, and in the sums. -/
theorem frame_covered
    {binLen : Nat}
    (frame : binLen * ds ≤ n)
    (isChannel : channel < 2) :
    binLen ≤ (dcLength (2 * n) ds channel + 1) / 2 ∧
      binLen * ds ≤ covered (2 * n) ds channel := by
  have frames : 2 * binLen ≤ 2 * n / ds := by
    rw [Nat.le_div_iff_mul_le positive, Nat.mul_assoc]
    omega
  have half : 2 * n / 2 = n := by omega
  have inChannel : binLen ≤ (2 * n / ds - channel + 1) / 2 := by omega
  unfold covered dcLength
  rw [half]
  exact ⟨inChannel, le_min (Nat.mul_le_mul_right ds inChannel) frame⟩

end Lengths

section Bytes

variable (positive : 0 < ds) (few : ds ≤ 255) (long : 8192 ≤ n)
variable (bytes : ∀ place, ByteSample (fftBuf place)) (isChannel : channel < 2)

include positive few long bytes isChannel

/-- What `remove_dc` takes from a channel of groups. -/
theorem average_filtered :
    average (samples (filtered fftBuf (2 * n) ds).fftBuf channel)
        (dcLength (2 * n) ds channel) =
      (total (samples fftBuf channel) (covered (2 * n) ds channel)).tdiv
        (dcLength (2 * n) ds channel) := by
  obtain ⟨_, inBuffer, _⟩ := dcLength_bounds positive few long isChannel
  have half : 2 * n / 2 = n := by omega
  unfold average covered
  rw [half, ← total_groups positive]
  congr 1
  unfold total
  apply Finset.sum_congr rfl
  intro k member
  rw [Finset.mem_range] at member
  exact filtered_groups positive few bytes channel isChannel k (by omega)

/-- The values behind `remove_dc`. -/
theorem balanced_cases
    (called : removeDcs (filtered fftBuf (2 * n) ds).fftBuf (2 * n) ds = some out)
    {k : Nat}
    (inside : k < n) :
    if k < (dcLength (2 * n) ds channel + 1) / 2 then
      -32768 ≤ difference fftBuf ds n channel k →
        difference fftBuf ds n channel k ≤ 32767 →
          (samples out channel k).toInt = difference fftBuf ds n channel k
    else
      (samples out channel k).toInt = groupSum (samples fftBuf channel) ds k n := by
  obtain ⟨least, inBuffer, _⟩ := dcLength_bounds positive few long isChannel
  have room : 2 ≤ 2 * n / ds := by
    unfold dcLength at least
    omega
  obtain ⟨out', called', balanced⟩ :=
    removeDcs_spec (filtered fftBuf (2 * n) ds).fftBuf room
  rw [called, Option.some.injEq] at called'
  subst called'
  have isGroupSum := filtered_groups positive few bytes channel isChannel k inside
  have value := balanced channel isChannel k
  split
  · rename_i isGroup
    rw [if_pos isGroup] at value
    have bounds :=
      @average_bounds (samples (filtered fftBuf (2 * n) ds).fftBuf channel) _
        (show 0 < dcLength (2 * n) ds channel by omega)
    have isAverage := Int16.toInt_ofInt_of_le bounds.1 (by omega)
    have isDifference :
        (samples (filtered fftBuf (2 * n) ds).fftBuf channel k).toInt -
            (Int16.ofInt
              (average (samples (filtered fftBuf (2 * n) ds).fftBuf channel)
                (dcLength (2 * n) ds channel))).toInt =
          difference fftBuf ds n channel k := by
      rw [isAverage, isGroupSum, average_filtered positive few long bytes isChannel]
      rfl
    -- the groups and the mean are exact here, so only their difference can wrap
    intro above below
    rw [value]
    rcases toInt_sub_cases (samples (filtered fftBuf (2 * n) ds).fftBuf channel k)
        (Int16.ofInt
          (average (samples (filtered fftBuf (2 * n) ds).fftBuf channel)
            (dcLength (2 * n) ds channel))) with
      kept | wrapped | wrapped
    · rw [kept.2, isDifference]
    · omega
    · omega
  · rename_i behind
    rw [if_neg behind] at value
    rw [value, isGroupSum]

/-- Where the extremes fit, all values are between them. -/
theorem balanced_between
    (called : removeDcs (filtered fftBuf (2 * n) ds).fftBuf (2 * n) ds = some out)
    (fits :
      -32768 ≤ trough ds (covered (2 * n) ds channel) (dcLength (2 * n) ds channel) ∧
        peak ds (covered (2 * n) ds channel) (dcLength (2 * n) ds channel) ≤ 32767)
    {k : Nat}
    (inside : k < n) :
    trough ds (covered (2 * n) ds channel) (dcLength (2 * n) ds channel) ≤
        (samples out channel k).toInt ∧
      (samples out channel k).toInt ≤
        peak ds (covered (2 * n) ds channel) (dcLength (2 * n) ds channel) := by
  obtain ⟨least, inBuffer, several⟩ := dcLength_bounds positive few long isChannel
  have byteSamples : ∀ t, ByteSample (samples fftBuf channel t) := fun t => bytes _
  have size := groupSize_le positive k n
  have sum := byteSum_bounds byteSamples ((range n).filter (fun t => t / ds = k))
  have value := balanced_cases positive few long bytes isChannel called inside
  split at value
  · rename_i isGroup
    have others := total_bounds_of_group positive byteSamples isGroup n
    have half : 2 * n / 2 = n := by omega
    have isCovered :
        min ((dcLength (2 * n) ds channel + 1) / 2 * ds) n = covered (2 * n) ds channel := by
      rw [covered, half]
    rw [isCovered] at others
    have enough : 3 ≤ dcLength (2 * n) ds channel := by omega
    have above := le_peak enough size sum.2 others.1
    have below := trough_le enough size sum.1 others.2
    have isValue := value (fits.1.trans below) (above.trans fits.2)
    rw [isValue]
    exact ⟨below, above⟩
  · rw [value]
    exact between_of_several (show 0 < dcLength (2 * n) ds channel by omega) several size sum

end Bytes

end Values

/-! ## A group against the rest -/

/-- Bytes of one value in a group, and of another elsewhere. -/
def spike (ds group : Nat) (inside outside : UInt8) (place : Nat) : UInt8 :=
  if place / 2 / ds = group then inside else outside

section Spike

variable {ds n group channel : Nat} {inside outside : UInt8}

theorem prepared_toInt (buf8 : Nat → UInt8) (j : Nat) :
    (prepared buf8 j).toInt = ((buf8 j).toNat : Int) - 127 := by
  have most := (buf8 j).toNat_lt
  exact Int16.toInt_ofInt_of_le (by omega) (by omega)

/-- Its samples. -/
theorem spike_sample
    (isChannel : channel < 2)
    (t : Nat) :
    (samples (prepared (spike ds group inside outside)) channel t).toInt =
      if t / ds = group then (inside.toNat : Int) - 127 else (outside.toNat : Int) - 127 := by
  have place : (channel + 2 * t) / 2 = t := by omega
  rw [samples, prepared_toInt, spike, place]
  split <;> rfl

/-- The sum of the group. -/
theorem spike_groupSum
    (positive : 0 < ds)
    (isChannel : channel < 2)
    (whole : (group + 1) * ds ≤ n) :
    groupSum (samples (prepared (spike ds group inside outside)) channel) ds group n =
      ds * ((inside.toNat : Int) - 127) := by
  have size := groupSize_of_le positive whole
  unfold groupSum
  rw [Finset.sum_congr rfl (g := fun _ => (inside.toNat : Int) - 127)]
  · rw [Finset.sum_const, nsmul_eq_mul, ← groupSize, size]
  · intro t member
    rw [spike_sample isChannel, if_pos (Finset.mem_filter.mp member).2]

/-- The sum of a channel. -/
theorem spike_total
    (positive : 0 < ds)
    (isChannel : channel < 2)
    {count : Nat}
    (whole : (group + 1) * ds ≤ count) :
    total (samples (prepared (spike ds group inside outside)) channel) count =
      ds * ((inside.toNat : Int) - 127) +
        ((count : Int) - ds) * ((outside.toNat : Int) - 127) := by
  have size := groupSize_of_le positive whole
  have others :
      ((range count).filter (fun t => ¬ t / ds = group)).card = count - ds := by
    have both :=
      Finset.card_filter_add_card_filter_not (s := range count) (fun t => t / ds = group)
    rw [← groupSize, size, Finset.card_range] at both
    omega
  have atMost : ds ≤ count := by
    rw [Nat.succ_mul] at whole
    omega
  unfold total
  rw [Finset.sum_congr rfl (fun t _ => spike_sample isChannel t), Finset.sum_ite,
    Finset.sum_const, Finset.sum_const, ← groupSize, size, others, nsmul_eq_mul,
    nsmul_eq_mul, Nat.cast_sub atMost]

end Spike

/-! ## Coefficients without room -/

/-- A coefficient that leaves room for both extremes. -/
def HasRoom (coef : Int) (ds covered length : Nat) : Prop :=
  peak ds covered length * coef ≤ 32767 ∧ -32768 ≤ trough ds covered length * coef

/-- A group against the rest, without its mean. -/
def contrast (ds covered length : Nat) (inside outside : Int) : Int :=
  ds * inside - (ds * inside + ((covered : Int) - ds) * outside).tdiv length

section Room

variable {ds covered length : Nat}

theorem contrast_peak : contrast ds covered length 128 (-127) = peak ds covered length := by
  unfold contrast peak
  rw [Int.mul_comm (ds : Int), Int.mul_neg, Int.mul_comm _ 127, ← Int.sub_eq_add_neg]

theorem contrast_trough : contrast ds covered length (-127) 128 = trough ds covered length := by
  unfold contrast trough
  rw [Int.mul_comm (ds : Int), Int.mul_comm _ 128]

/-- A group of the largest byte among samples of zero. -/
theorem contrast_high (long : 43 ≤ length) :
    125 * (ds : Int) ≤ contrast ds covered length 128 0 ∧
      contrast ds covered length 128 0 ≤ 128 * ds := by
  have wide := Int.mul_le_mul_of_nonneg_left (Int.ofNat_le.mpr long) (Int.natCast_nonneg ds)
  have most : ((ds : Int) * 128).tdiv length ≤ 3 * ds :=
    CheckedInt.tdiv_le_of_le_mul (by omega) (by rw [Int.mul_assoc]; push_cast at wide; omega)
  have least : 0 ≤ ((ds : Int) * 128).tdiv length :=
    Int.tdiv_nonneg (by omega) (by omega)
  unfold contrast
  rw [Int.mul_zero, Int.add_zero]
  omega

/-- And one of the smallest. -/
theorem contrast_low (long : 43 ≤ length) :
    -127 * (ds : Int) ≤ contrast ds covered length (-127) 0 ∧
      contrast ds covered length (-127) 0 ≤ -124 * ds := by
  have wide := Int.mul_le_mul_of_nonneg_left (Int.ofNat_le.mpr long) (Int.natCast_nonneg ds)
  have most : ((ds : Int) * 127).tdiv length ≤ 3 * ds :=
    CheckedInt.tdiv_le_of_le_mul (by omega) (by rw [Int.mul_assoc]; push_cast at wide; omega)
  have least : 0 ≤ ((ds : Int) * 127).tdiv length :=
    Int.tdiv_nonneg (by omega) (by omega)
  unfold contrast
  rw [Int.mul_zero, Int.add_zero, Int.mul_neg, Int.neg_tdiv]
  omega

/-- What a mean of the other samples adds to an extreme. -/
theorem extremes_bounded
    (positive : 0 < length)
    (inSum : 3 * covered ≤ 2 * (length * ds)) :
    peak ds covered length ≤ 213 * ds ∧ -213 * (ds : Int) ≤ trough ds covered length := by
  have product : ((length * ds : Nat) : Int) = length * ds := Int.natCast_mul _ _
  have high : -85 * (ds : Int) ≤ (128 * ds - 127 * ((covered : Int) - ds)).tdiv length := by
    apply Int.le_tdiv_of_mul_le (by omega)
    rw [Int.mul_assoc, Int.mul_comm (ds : Int)]
    omega
  have low : (-127 * ds + 128 * ((covered : Int) - ds)).tdiv length ≤ 86 * (ds : Int) := by
    apply CheckedInt.tdiv_le_of_le_mul (by omega)
    rw [Int.mul_assoc, Int.mul_comm (ds : Int)]
    omega
  unfold peak trough
  omega

/-- A coefficient without room is too large for a value that is one. -/
theorem exists_contrast
    (few : ds ≤ 255)
    (long : 43 ≤ length)
    (inSum : 3 * covered ≤ 2 * (length * ds))
    {coef : Int}
    (isLarge : 2 ≤ coef)
    (noRoom : ¬ HasRoom coef ds covered length) :
    ∃ inside outside : UInt8,
      let value :=
        contrast ds covered length ((inside.toNat : Int) - 127) ((outside.toNat : Int) - 127)
      (-32768 ≤ value ∧ value ≤ 32767) ∧
        ¬ (-32768 ≤ value * coef ∧ value * coef ≤ 32767) := by
  obtain ⟨peakMost, troughLeast⟩ := extremes_bounded (show 0 < length by omega) inSum
  have doubles (value : Int) (nonneg : 0 ≤ value) : value * 2 ≤ value * coef :=
    Int.mul_le_mul_of_nonneg_left isLarge nonneg
  have doubles' (value : Int) (nonpos : value ≤ 0) : value * coef ≤ value * 2 := by
    have mirrored := doubles (-value) (by omega)
    rw [Int.neg_mul, Int.neg_mul] at mirrored
    omega
  unfold HasRoom at noRoom
  rw [not_and_or] at noRoom
  rcases noRoom with tooHigh | tooLow
  · rcases Int.lt_or_le 32767 (peak ds covered length) with wraps | fits
    · -- the peak itself is no `int16_t`, so the rest is silent
      have bounds := @contrast_high ds covered length long
      refine ⟨255, 127, ?_⟩
      have twice := doubles (contrast ds covered length 128 0) (by omega)
      have isHigh :
          contrast ds covered length (((255 : UInt8).toNat : Int) - 127)
              (((127 : UInt8).toNat : Int) - 127) =
            contrast ds covered length 128 0 := rfl
      dsimp only
      rw [isHigh]
      omega
    · refine ⟨255, 0, ?_⟩
      have isPeak :
          contrast ds covered length (((255 : UInt8).toNat : Int) - 127)
              (((0 : UInt8).toNat : Int) - 127) =
            peak ds covered length := contrast_peak
      dsimp only
      rw [isPeak]
      have positive : 0 ≤ peak ds covered length := by
        by_contra negative
        have below := doubles' (peak ds covered length) (by omega)
        omega
      omega
  · rcases Int.lt_or_le (trough ds covered length) (-32768) with wraps | fits
    · have bounds := @contrast_low ds covered length long
      refine ⟨0, 127, ?_⟩
      have twice := doubles' (contrast ds covered length (-127) 0) (by omega)
      have isLow :
          contrast ds covered length (((0 : UInt8).toNat : Int) - 127)
              (((127 : UInt8).toNat : Int) - 127) =
            contrast ds covered length (-127) 0 := rfl
      dsimp only
      rw [isLow]
      omega
    · refine ⟨0, 255, ?_⟩
      have isTrough :
          contrast ds covered length (((0 : UInt8).toNat : Int) - 127)
              (((255 : UInt8).toNat : Int) - 127) =
            trough ds covered length := contrast_trough
      dsimp only
      rw [isTrough]
      have negative : trough ds covered length ≤ 0 := by
        by_contra positive
        have above := doubles (trough ds covered length) (by omega)
        omega
      omega

end Room

end LibRtlSdr.RtlPower
