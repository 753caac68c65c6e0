import LibRtlSdr.RtlPowerWindow

namespace LibRtlSdr.RtlPower

/-!
# Groups of bytes, and their extremes behind `remove_dc`

A captured byte stands for a sample from -127 to 128.  A group of samples is added up,
and a mean is taken from it.  The largest and the smallest result are those of a group at
one end of the range among samples at the other.
-/

open Finset (range)

/-! ## Groups of bytes -/

/-- A sample of a byte. -/
def ByteSample (value : Int16) : Prop :=
  -127 ≤ value.toInt ∧ value.toInt ≤ 128

theorem prepared_byteSample (buf8 : Nat → UInt8) (j : Nat) :
    ByteSample (prepared buf8 j) := by
  have most := (buf8 j).toNat_lt
  have value : (prepared buf8 j).toInt = ((buf8 j).toNat : Int) - 127 :=
    Int16.toInt_ofInt_of_le (by omega) (by omega)
  unfold ByteSample
  rw [value]
  omega

/-- The number of samples of a group, of which there are `count` in all. -/
def groupSize (ds k count : Nat) : Nat :=
  ((range count).filter (fun t => t / ds = k)).card

section Groups

variable {x : Nat → Int16} {ds : Nat}

/-- A sum of samples of bytes. -/
theorem byteSum_bounds
    (bytes : ∀ t, ByteSample (x t))
    (places : Finset Nat) :
    -127 * (places.card : Int) ≤ ∑ t ∈ places, (x t).toInt ∧
      ∑ t ∈ places, (x t).toInt ≤ 128 * places.card := by
  have below := Finset.card_nsmul_le_sum places _ (-127) (fun t _ => (bytes t).1)
  have above := Finset.sum_le_card_nsmul places _ 128 (fun t _ => (bytes t).2)
  rw [nsmul_eq_mul] at below above
  constructor <;> linarith

theorem groupSize_le (positive : 0 < ds) (k count : Nat) : groupSize ds k count ≤ ds := by
  unfold groupSize
  calc
    ((range count).filter (fun t => t / ds = k)).card ≤
        (Finset.Ico (k * ds) (k * ds + ds)).card := by
      apply Finset.card_le_card
      intro t member
      rw [Finset.mem_filter, Nat.div_eq_iff positive] at member
      rw [Finset.mem_Ico]
      omega
    _ = ds := by
      rw [Nat.card_Ico, Nat.add_sub_cancel_left]

/-- A group that lies before the end. -/
theorem groupSize_of_le
    (positive : 0 < ds)
    {k count : Nat}
    (inside : (k + 1) * ds ≤ count) :
    groupSize ds k count = ds := by
  have isInterval :
      (range count).filter (fun t => t / ds = k) = Finset.Ico (k * ds) (k * ds + ds) := by
    rw [Nat.succ_mul] at inside
    ext t
    rw [Finset.mem_filter, Finset.mem_range, Finset.mem_Ico, Nat.div_eq_iff positive]
    omega
  rw [groupSize, isInterval, Nat.card_Ico, Nat.add_sub_cancel_left]

/-- The samples of the first groups are the first samples. -/
theorem total_groups
    (positive : 0 < ds)
    (groups count : Nat) :
    ∑ k ∈ range groups, groupSum x ds k count = total x (min (groups * ds) count) := by
  unfold groupSum total
  rw [Finset.sum_fiberwise_eq_sum_filter]
  congr 1
  ext t
  rw [Finset.mem_filter, Finset.mem_range, Finset.mem_range, Finset.mem_range,
    Nat.div_lt_iff_lt_mul positive, lt_min_iff, and_comm]

/-- What the samples of the other groups add. -/
theorem total_bounds_of_group
    (positive : 0 < ds)
    (bytes : ∀ t, ByteSample (x t))
    {k groups : Nat}
    (isGroup : k < groups)
    (count : Nat) :
    groupSum x ds k count -
          127 * ((min (groups * ds) count : Nat) - groupSize ds k count : Int) ≤
        total x (min (groups * ds) count) ∧
      total x (min (groups * ds) count) ≤
        groupSum x ds k count +
          128 * ((min (groups * ds) count : Nat) - groupSize ds k count : Int) := by
  have inside :
      (range count).filter (fun t => t / ds = k) ⊆ range (min (groups * ds) count) := by
    intro t member
    rw [Finset.mem_filter, Finset.mem_range] at member
    have below : t < groups * ds := by
      rw [← Nat.div_lt_iff_lt_mul positive]
      omega
    rw [Finset.mem_range, lt_min_iff]
    exact ⟨below, member.1⟩
  have split := Finset.sum_sdiff (f := fun t => (x t).toInt) inside
  have others :=
    byteSum_bounds bytes
      (range (min (groups * ds) count) \ (range count).filter (fun t => t / ds = k))
  rw [Finset.card_sdiff_of_subset inside, Finset.card_range,
    Nat.cast_sub (by rw [← Finset.card_range (min _ _)]; exact Finset.card_le_card inside)]
    at others
  unfold total groupSum groupSize
  constructor <;> linarith

end Groups

/-! ## Extremes -/

/-- The largest value of a group of which a mean over a length has been taken. -/
def peak (ds covered length : Nat) : Int :=
  128 * ds - (128 * ds - 127 * ((covered : Int) - ds)).tdiv length

/-- The smallest. -/
def trough (ds covered length : Nat) : Int :=
  -127 * ds - (-127 * ds + 128 * ((covered : Int) - ds)).tdiv length

/-- A negative quotient has been rounded up. -/
theorem le_tdiv_mul_of_neg
    {value divisor : Int}
    (positive : 0 < divisor)
    (isNegative : value.tdiv divisor < 0) :
    value ≤ value.tdiv divisor * divisor := by
  have below : value < 0 := by
    by_contra notBelow
    have nonneg := Int.tdiv_nonneg (Int.not_lt.mp notBelow) positive.le
    omega
  have opposite := Int.ediv_mul_le (-value) positive.ne'
  rw [← Int.tdiv_eq_ediv_of_nonneg (by omega), Int.neg_tdiv, Int.neg_mul] at opposite
  omega

/-- A quotient rises no faster than what is divided. -/
theorem tdiv_le_add
    {value other rise divisor : Int}
    (positive : 0 < divisor)
    (nonneg : 0 ≤ rise)
    (bounded : value ≤ other + rise * divisor) :
    value.tdiv divisor ≤ other.tdiv divisor + rise := by
  have product :
      (other.tdiv divisor + rise) * divisor =
        other.tdiv divisor * divisor + rise * divisor :=
    Int.add_mul _ _ _
  have next :
      (other.tdiv divisor + rise + 1) * divisor =
        (other.tdiv divisor + 1) * divisor + rise * divisor := by
    ring
  have above : other < (other.tdiv divisor + 1) * divisor :=
    Int.lt_tdiv_add_one_mul_self other positive
  rcases Int.lt_or_le (other.tdiv divisor + rise) 0 with negative | notNegative
  · have rounded := le_tdiv_mul_of_neg positive (show other.tdiv divisor < 0 by omega)
    exact CheckedInt.tdiv_le_of_le_mul positive (by omega)
  · exact CheckedInt.tdiv_le_of_lt_mul positive notNegative (by omega)

section Extremes

variable {ds covered length size : Nat} {group whole : Int}

/-- No group is above the peak. -/
theorem le_peak
    (long : 3 ≤ length)
    (part : size ≤ ds)
    (most : group ≤ 128 * size)
    (others : group - 127 * ((covered : Int) - size) ≤ whole) :
    group - whole.tdiv length ≤ peak ds covered length := by
  have nonneg : 0 ≤ 128 * (ds : Int) - group := by omega
  have wide := Int.mul_le_mul_of_nonneg_left (Int.ofNat_le.mpr long) nonneg
  have quotient :=
    @tdiv_le_add (128 * ds - 127 * ((covered : Int) - ds)) whole
      (128 * (ds : Int) - group) length (by omega) nonneg (by push_cast at wide; omega)
  unfold peak
  omega

/-- And none is below the trough. -/
theorem trough_le
    (long : 3 ≤ length)
    (part : size ≤ ds)
    (least : -127 * (size : Int) ≤ group)
    (others : whole ≤ group + 128 * ((covered : Int) - size)) :
    trough ds covered length ≤ group - whole.tdiv length := by
  have nonneg : 0 ≤ group + 127 * (ds : Int) := by omega
  have wide := Int.mul_le_mul_of_nonneg_left (Int.ofNat_le.mpr long) nonneg
  have quotient :=
    @tdiv_le_add whole (-127 * ds + 128 * ((covered : Int) - ds))
      (group + 127 * (ds : Int)) length (by omega) nonneg (by push_cast at wide; omega)
  unfold trough
  omega

/-- A group without a mean is between them, when there are several. -/
theorem between_of_several
    (positive : 0 < length)
    (several : 3 * ds ≤ covered)
    (part : size ≤ ds)
    (bounds : -127 * (size : Int) ≤ group ∧ group ≤ 128 * size) :
    trough ds covered length ≤ group ∧ group ≤ peak ds covered length := by
  have high : (128 * ds - 127 * ((covered : Int) - ds)).tdiv length ≤ 0 :=
    CheckedInt.tdiv_le_of_le_mul (by omega) (by omega)
  have low : 0 ≤ (-127 * ds + 128 * ((covered : Int) - ds)).tdiv length :=
    Int.tdiv_nonneg (by omega) (by omega)
  unfold peak trough
  omega

end Extremes

/-! ## The boxcar sums -/

section Sums

variable {fftBuf : Nat → Int16} {ds n : Nat}

/-- The sum of a group of no more than 255 samples. -/
theorem groupSum_bounds
    (positive : 0 < ds)
    (few : ds ≤ 255)
    {x : Nat → Int16}
    (bytes : ∀ t, ByteSample (x t))
    (k count : Nat) :
    -32385 ≤ groupSum x ds k count ∧ groupSum x ds k count ≤ 32640 := by
  have size := groupSize_le positive k count
  have bounds := byteSum_bounds bytes ((range count).filter (fun t => t / ds = k))
  unfold groupSize at size
  unfold groupSum
  omega

/-- A group of one sample. -/
theorem groupSum_one
    (x : Nat → Int16)
    {k count : Nat}
    (inside : k < count) :
    groupSum x 1 k count = (x k).toInt := by
  unfold groupSum
  rw [Finset.sum_filter]
  simp [inside]

/-- What the filter leaves of groups of no more than 255 bytes. -/
theorem filtered_groups
    (positive : 0 < ds)
    (few : ds ≤ 255)
    (bytes : ∀ place, ByteSample (fftBuf place)) :
    ∀ channel < 2, ∀ k < n,
      (samples (filtered fftBuf (2 * n) ds).fftBuf channel k).toInt =
        groupSum (samples fftBuf channel) ds k n := by
  intro channel isChannel k inside
  have bounds :=
    groupSum_bounds positive few (fun t => bytes (channel + 2 * t)) k n
  unfold filtered
  split
  · rename_i many
    have passed :=
      (boxcar_gathered fftBuf many (show 0 < n by omega)).passed channel isChannel k inside
    rw [samples, passed]
    exact Int16.toInt_ofInt_of_le (by unfold samples; omega) (by unfold samples; omega)
  · obtain rfl : ds = 1 := by omega
    rw [groupSum_one _ inside]

/-- Up to 255 bytes, every sum fits. -/
theorem filtered_assigned
    (positive : 0 < ds)
    (few : ds ≤ 255)
    (some : 0 < n)
    (bytes : ∀ place, ByteSample (fftBuf place)) :
    ∀ sum ∈ (filtered fftBuf (2 * n) ds).assigned, -32768 ≤ sum ∧ sum ≤ 32767 := by
  unfold filtered
  split
  · rename_i many
    rw [(boxcar_gathered fftBuf many some).assigned]
    intro sum member
    obtain ⟨count, _, isTurn⟩ := List.mem_flatMap.mp member
    have isSum :
        ∀ channel,
          (Int16.ofInt
                (groupSum (samples fftBuf channel) ds (count / ds) count)).toInt +
              (samples fftBuf channel count).toInt =
            groupSum (samples fftBuf channel) ds (count / ds) (count + 1) := by
      intro channel
      have bounds :=
        groupSum_bounds positive few (fun t => bytes (channel + 2 * t)) (count / ds) count
      rw [groupSum_succ, if_pos rfl,
        Int16.toInt_ofInt_of_le (by unfold samples; omega) (by unfold samples; omega)]
    have next (channel : Nat) :=
      groupSum_bounds positive few (fun t => bytes (channel + 2 * t)) (count / ds)
        (count + 1)
    simp only [turnSums, isSum, List.mem_cons, List.not_mem_nil, or_false] at isTurn
    rcases isTurn with rfl | rfl
    · have bounds := next 0
      unfold samples
      omega
    · have bounds := next 1
      unfold samples
      omega
  · exact fun _ member => absurd member List.not_mem_nil

/-- The sum of 256 times the largest byte does not fit. -/
theorem filtered_overflow
    (many : 256 ≤ ds)
    (long : 256 < n)
    (largest : ∀ place, (fftBuf place).toInt = 128) :
    32768 ∈ (filtered fftBuf (2 * n) ds).assigned := by
  have none : 255 / ds = 0 := Nat.div_eq_of_lt many
  have everyone :
      ((range 255).filter fun t => t / ds = 0) = range 255 := by
    apply Finset.filter_true_of_mem
    intro t member
    rw [Finset.mem_range] at member
    exact Nat.div_eq_of_lt (by omega)
  have sum : groupSum (samples fftBuf 0) ds (255 / ds) 255 = 32640 := by
    unfold groupSum samples
    rw [none, everyone]
    simp [largest]
  rw [filtered, if_pos (by omega), (boxcar_gathered fftBuf (by omega) (by omega)).assigned,
    List.mem_flatMap]
  refine ⟨255, by rw [List.mem_range'_1]; omega, ?_⟩
  rw [turnSums, sum, List.mem_cons]
  left
  rw [samples, largest]
  decide

end Sums

/-! ## The mean -/

/-- The length that `remove_dc` gets for a channel. -/
def dcLength (bufLen ds channel : Nat) : Nat :=
  bufLen / ds - channel

/-- The captured samples that are in its sum. -/
def covered (bufLen ds channel : Nat) : Nat :=
  min ((dcLength bufLen ds channel + 1) / 2 * ds) (bufLen / 2)

/-- Both channels behind `remove_dc`. -/
theorem removeDcs_spec
    {bufLen ds : Nat}
    (fftBuf : Nat → Int16)
    (room : 2 ≤ bufLen / ds) :
    ∃ out,
      removeDcs fftBuf bufLen ds = some out ∧
        ∀ channel < 2, ∀ k,
          samples out channel k =
            if k < (dcLength bufLen ds channel + 1) / 2 then
              samples fftBuf channel k -
                Int16.ofInt
                  (average (samples fftBuf channel) (dcLength bufLen ds channel))
            else
              samples fftBuf channel k := by
  obtain ⟨first, calledFirst, loweredFirst, keptFirst⟩ :=
    removeDc_spec fftBuf 0 (show 0 < bufLen / ds by omega)
  obtain ⟨second, calledSecond, loweredSecond, keptSecond⟩ :=
    removeDc_spec first 1 (show 0 < bufLen / ds - 1 by omega)
  have otherFirst : samples first 1 = samples fftBuf 1 := by
    funext t
    exact keptFirst _ (fun _ _ => by omega)
  have otherSecond : samples second 0 = samples first 0 := by
    funext t
    exact keptSecond _ (fun _ _ => by omega)
  refine ⟨second, ?_, ?_⟩
  · unfold removeDcs
    rw [calledFirst, Option.bind_eq_bind, Option.bind_some, calledSecond]
  · intro channel isChannel k
    unfold dcLength
    obtain rfl | rfl : channel = 0 ∨ channel = 1 := by omega
    · rw [otherSecond, Nat.sub_zero]
      split
      · rename_i inside
        exact loweredFirst k inside
      · rename_i outside
        exact keptFirst _ (fun _ _ => by omega)
    · rw [← otherFirst]
      split
      · rename_i inside
        exact loweredSecond k inside
      · rename_i outside
        exact keptSecond _ (fun _ _ => by omega)

end LibRtlSdr.RtlPower
