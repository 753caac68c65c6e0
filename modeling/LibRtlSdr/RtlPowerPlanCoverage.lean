import LibRtlSdr.RtlPowerPlan
import Mathlib.Tactic.NormNum

namespace LibRtlSdr.RtlPower

/-!
# What a scan plan covers, and which plans can be run

Every plan of a step below `MINIMUM_RATE` covers its range by hops side by side, and its
frames lie in the buffer.  Not every plan can be run: an empty range divides by zero, a
step of 1 can be finer than the search goes, and a step of half a hop or more leaves two
bins, for which the table of `fix_fft` has no cosine.
-/

/-! ## Frames -/

/-- The offsets of the frames: 0, `2 * bin_len`, ... below `buf_len / ds`. -/
def frameOffsets (bufLen ds binLen : Nat) : List Nat :=
  List.range' 0 ((bufLen / ds + (2 * binLen - 1)) / (2 * binLen)) (2 * binLen)

theorem mem_frameOffsets
    {bufLen ds binLen offset : Nat}
    (some : 0 < binLen) :
    offset ∈ frameOffsets bufLen ds binLen ↔
      offset < bufLen / ds ∧ 2 * binLen ∣ offset := by
  have before :
      ∀ frame, frame < (bufLen / ds + (2 * binLen - 1)) / (2 * binLen) ↔
        2 * binLen * frame < bufLen / ds := by
    intro frame
    rw [← Nat.succ_le_iff, Nat.le_div_iff_mul_le (by omega), Nat.succ_mul, Nat.mul_comm]
    omega
  rw [frameOffsets, List.mem_range']
  simp only [before, Nat.zero_add]
  constructor
  · rintro ⟨frame, inside, rfl⟩
    exact ⟨inside, frame, rfl⟩
  · rintro ⟨inside, frame, rfl⟩
    exact ⟨frame, inside, rfl⟩

/-- A frame of a plan lies in its buffer, also where `ds` does not divide the latter. -/
theorem frame_inside
    {binE ds offset : Nat}
    (positive : 0 < ds)
    (isFrame : offset ∈ frameOffsets (max 16384 (2 * 2 ^ binE * ds)) ds (2 ^ binE)) :
    offset + 2 * 2 ^ binE ≤ max 16384 (2 * 2 ^ binE * ds) := by
  obtain ⟨before, frame, rfl⟩ := (mem_frameOffsets (Nat.two_pow_pos binE)).mp isFrame
  rcases Nat.le_total 16384 (2 * 2 ^ binE * ds) with long | short
  · rw [max_eq_right long] at before ⊢
    rw [Nat.mul_div_cancel _ positive] at before
    have isFirst : frame = 0 := by
      by_contra later
      have atLeast := Nat.le_mul_of_pos_right (2 * 2 ^ binE) (Nat.pos_of_ne_zero later)
      omega
    rw [isFirst, Nat.mul_zero, Nat.zero_add]
    exact Nat.le_mul_of_pos_right _ positive
  · rw [max_eq_left short] at before ⊢
    rcases Nat.lt_or_ge 1 ds with several | single
    · have fits : 2 * 2 ^ binE ≤ 16384 / ds :=
        (Nat.le_div_iff_mul_le positive).mpr short
      have half : 16384 / ds ≤ 16384 / 2 := Nat.div_le_div_left several (by decide)
      omega
    · have isOne : ds = 1 := by omega
      rw [isOne, Nat.div_one] at before
      rw [isOne, Nat.mul_one, ← Nat.pow_succ'] at short
      have divides : 2 * 2 ^ binE ∣ 16384 := by
        rw [← Nat.pow_succ', show 16384 = 2 ^ 14 from rfl] at *
        exact Nat.pow_dvd_pow 2 ((Nat.pow_le_pow_iff_right (by decide)).mp short)
      obtain ⟨frames, isWhole⟩ := divides
      rw [isWhole] at before ⊢
      rw [← Nat.mul_succ]
      exact Nat.mul_le_mul_left _ (Nat.lt_of_mul_lt_mul_left before)

/-! ## Coverage -/

/-- The hops of a plan cover a range up to its last few hertz. -/
structure Covers (lower upper : Int) (plan : Plan) : Prop where
  count : 1 ≤ plan.tunes.length ∧ (plan.tunes.length : Int) ≤ maxTunes
  rate : ∀ tune ∈ plan.tunes, minimumRate ≤ tune.rate ∧ tune.rate ≤ maximumRate
  width :
    ∀ tune ∈ plan.tunes,
      0 < tune.downsample ∧ tune.rate = plan.bwSeen * tune.downsample
  centred :
    ∀ (i : Nat) tune, plan.tunes[i]? = some tune →
      |2 * tune.freq - (lower + i * plan.bwSeen + (lower + (i + 1) * plan.bwSeen))| ≤ 2
  adjacent :
    ∀ freq : Int,
      (∃ i < plan.tunes.length,
          lower + i * plan.bwSeen ≤ freq ∧ freq < lower + (i + 1) * plan.bwSeen) ↔
        lower ≤ freq ∧ freq < lower + plan.tunes.length * plan.bwSeen
  short :
    lower + plan.tunes.length * plan.bwSeen ≤ upper ∧
      upper < lower + plan.tunes.length * plan.bwSeen + plan.tunes.length

/-- The frames of a hop lie in its buffer. -/
def FramesInside (tune : TuningState) : Prop :=
  ∀ offset ∈ frameOffsets tune.bufLen.toNat tune.downsample.toNat (2 ^ tune.binE),
    offset + 2 * 2 ^ tune.binE - 1 < tune.bufLen.toNat

/-- Bands side by side leave no gap. -/
theorem bands_adjacent
    (lower : Int)
    {width count : Nat}
    (positive : 0 < width)
    (freq : Int) :
    (∃ i < count,
        lower + (i : Nat) * (width : Int) ≤ freq ∧
          freq < lower + ((i : Nat) + 1) * (width : Int)) ↔
      lower ≤ freq ∧ freq < lower + count * (width : Int) := by
  constructor
  · rintro ⟨i, inside, atLeast, below⟩
    have nonneg : (0 : Int) ≤ i * width := by positivity
    have product : ((i : Int) + 1) * width ≤ count * width :=
      mul_le_mul_of_nonneg_right (by omega) (by omega)
    omega
  · rintro ⟨atLeast, below⟩
    obtain ⟨distance, isDistance⟩ := Int.eq_ofNat_of_zero_le (show 0 ≤ freq - lower by omega)
    have division := Nat.div_add_mod distance width
    have remainder := Nat.mod_lt distance positive
    refine ⟨distance / width, ?_, ?_, ?_⟩
    · rw [Nat.div_lt_iff_lt_mul positive]
      zify
      omega
    · have product : ((distance / width : Nat) : Int) * width ≤ distance := by
        exact_mod_cast Nat.div_mul_le_self distance width
      omega
    · have product : (distance : Int) < ((distance / width : Nat) + 1) * width := by
        exact_mod_cast (Nat.div_lt_iff_lt_mul positive).mp (Nat.lt_succ_self _)
      omega

/-- The hops of a narrow step, and what they leave of the range. -/
theorem planOf_covers
    {lower : Int}
    {width count bw binE downsample downsamplePasses : Nat}
    (positive : 0 < bw)
    (some : 0 < count)
    (few : count ≤ 3000)
    (samples : 0 < downsample)
    (rate : 1000000 ≤ bw * downsample ∧ bw * downsample ≤ 2800000)
    (inside : count * bw ≤ width ∧ width < count * bw + count) :
    Covers lower (lower + width)
      (planOf lower count bw (bw * downsample) binE downsample downsamplePasses) := by
  have length :
      (planOf lower count bw (bw * downsample) binE downsample
        downsamplePasses).tunes.length = count := by
    simp [planOf]
  constructor
  · rw [length]
    unfold maxTunes
    omega
  · intro tune member
    obtain ⟨i, _, rfl⟩ := List.mem_map.mp member
    unfold minimumRate maximumRate
    dsimp only
    omega
  · intro tune member
    obtain ⟨i, _, rfl⟩ := List.mem_map.mp member
    exact ⟨Int.natCast_pos.mpr samples, Int.natCast_mul bw downsample⟩
  · intro i tune isTune
    rw [planOf, List.getElem?_map, Option.map_eq_some_iff] at isTune
    obtain ⟨place, isPlace, rfl⟩ := isTune
    have isIndex : place = i := by
      obtain ⟨inRange, isPlace⟩ := List.getElem?_eq_some_iff.mp isPlace
      rw [← isPlace, List.getElem_range]
    rw [isIndex, planOf]
    dsimp only
    have next : ((i : Int) + 1) * bw = i * bw + bw := by ring
    rw [next, abs_le]
    omega
  · rw [length]
    exact bands_adjacent lower positive
  · rw [length]
    have product : ((count * bw : Nat) : Int) = count * bw := Int.natCast_mul count bw
    rw [planOf]
    dsimp only
    omega

theorem planOf_framesInside
    {lower : Int}
    {count bwSeen bwUsed binE downsample downsamplePasses : Nat}
    (positive : 0 < downsample) :
    ∀ tune ∈
        (planOf lower count bwSeen bwUsed binE downsample downsamplePasses).tunes,
      FramesInside tune := by
  intro tune member offset isFrame
  obtain ⟨i, _, rfl⟩ := List.mem_map.mp member
  dsimp only at isFrame ⊢
  rw [Int.toNat_natCast] at isFrame ⊢
  rw [Int.toNat_natCast] at isFrame
  have inside := frame_inside positive isFrame
  have some := Nat.two_pow_pos binE
  omega

/-- The plan of a range that is not empty covers it, for a step below `MINIMUM_RATE`. -/
theorem frequencyRange_covers
    (boxcar : Bool)
    {lower upper maxSize : Int}
    (nonneg : 0 ≤ lower)
    (some : lower < upper)
    (fits : upper < 2 ^ 31)
    (step : 1 ≤ maxSize)
    (notGiant : maxSize ≤ 999999) :
    ∃ plan,
      frequencyRange boxcar lower upper maxSize = Option.some (.planned plan) ∧
        Covers lower upper plan ∧ ∀ tune ∈ plan.tunes, FramesInside tune := by
  obtain ⟨width, isWidth⟩ := Int.eq_ofNat_of_zero_le (show 0 ≤ upper - lower by omega)
  obtain rfl : upper = lower + width := by omega
  obtain ⟨last, _, planned⟩ :=
    frequencyRange_eq boxcar nonneg (show 0 < width by omega) fits step
  obtain ⟨inside, beyond⟩ := hopWidth_remainder width
  obtain ⟨atMost, single⟩ := hopWidth_bounds width
  have countFew : hopCount width ≤ 3000 := by
    unfold hopCount
    omega
  have positive := hopWidth_pos (show 0 < width by omega)
  obtain ⟨samples, rateMost, rateLeast⟩ := downsampleFor_bounds boxcar positive atMost
  rw [if_neg (by unfold minimumRate; omega)] at planned
  exact ⟨_, planned,
    planOf_covers positive (Nat.succ_pos _) countFew samples ⟨rateLeast, rateMost⟩
      ⟨inside, beyond⟩,
    planOf_framesInside samples⟩

/-- The FM band in steps of 125 kHz. -/
theorem frequencyRange_covers_fm :
    ∃ plan,
      frequencyRange true 88000000 108000000 125000 = some (.planned plan) ∧
        Covers 88000000 108000000 plan ∧ ∀ tune ∈ plan.tunes, FramesInside tune :=
  frequencyRange_covers true (by decide) (by decide) (by decide) (by decide) (by decide)

/-! ## Plans that can be run -/

/-- What the rest of the program asks of a plan. -/
structure Runnable (maxSize : Int) (plan : Plan) : Prop where
  supported : RtlSdr.SupportedRate (UInt32.ofNat plan.bwUsed.toNat)
  tunes :
    ∀ tune ∈ plan.tunes,
      tune.rate = plan.bwUsed ∧ tune.downsample = plan.downsample ∧
        tune.binE = plan.binE
  binWidth : (plan.bwUsed : ℚ) / (plan.downsample * 2 ^ plan.binE : Int) ≤ maxSize
  bins : plan.binE = 0 ∨ 2 ≤ plan.binE

theorem supportedRate_of_bounds
    {rate : Nat}
    (bounds : 1000000 ≤ rate ∧ rate ≤ 2800000) :
    RtlSdr.SupportedRate (UInt32.ofNat rate) := by
  have value : (UInt32.ofNat rate).toNat = rate :=
    UInt32.toNat_ofNat_of_lt' (by unfold UInt32.size; omega)
  unfold RtlSdr.SupportedRate
  simp only [UInt32.le_iff_toNat_le, UInt32.lt_iff_toNat_lt, value]
  simp
  omega

theorem planOf_tunes
    (lower : Int)
    (count bwSeen bwUsed binE downsample downsamplePasses : Nat) :
    ∀ tune ∈
        (planOf lower count bwSeen bwUsed binE downsample downsamplePasses).tunes,
      tune.rate = bwUsed ∧ tune.downsample = downsample ∧ tune.binE = binE := by
  intro tune member
  obtain ⟨i, _, rfl⟩ := List.mem_map.mp member
  exact ⟨rfl, rfl, rfl⟩

/-- A plan with one bin for each hop. -/
theorem planOf_giant_runnable
    {lower : Int}
    {count size downsample downsamplePasses : Nat}
    (bounds : 1000000 ≤ size ∧ size ≤ 2800000)
    (positive : 0 < downsample) :
    Runnable size (planOf lower count size size 0 downsample downsamplePasses) := by
  refine ⟨supportedRate_of_bounds bounds, planOf_tunes lower count _ _ _ _ _, ?_,
    .inl rfl⟩
  unfold planOf
  dsimp only
  rw [div_le_iff₀ (by exact_mod_cast Nat.mul_pos positive Nat.one_pos)]
  have product : size ≤ size * downsample := Nat.le_mul_of_pos_right size positive
  push_cast
  rw [mul_one]
  exact_mod_cast product

/-- A plan with two bins or more. -/
theorem planOf_runnable_iff
    {lower maxSize : Int}
    {count bw last downsample downsamplePasses : Nat}
    (positive : 0 < downsample)
    (rate : 1000000 ≤ bw * downsample ∧ bw * downsample ≤ 2800000)
    (stops : ThresholdSearch.StopsAt (binPath maxSize) 20 (bw : Int) last)
    (step : 1 ≤ maxSize) :
    Runnable maxSize
        (planOf lower count bw (bw * downsample) (last + 1) downsample
          downsamplePasses) ↔
      2 * maxSize < bw ∧ (bw : Int) ≤ 2 ^ 21 * maxSize := by
  have binWidth :
      (((bw * downsample : Nat) : Int) : ℚ) / ((downsample : Int) * 2 ^ (last + 1) : Int) ≤
          maxSize ↔
        (bw : Int) ≤ binPath maxSize last := by
    rw [← binSize_le_iff positive last]
    push_cast
    rw [mul_comm (downsample : ℚ)]
  have first : binPath maxSize 0 = 2 * maxSize := by
    unfold binPath
    ring
  have final : binPath maxSize 20 = 2 ^ 21 * maxSize := by
    unfold binPath
    ring
  constructor
  · intro runnable
    have wide := binWidth.mp runnable.binWidth
    have several : 0 < last := by
      rcases runnable.bins with none | two
      · exact absurd none (Nat.succ_ne_zero last)
      · have bins : 2 ≤ last + 1 := two
        omega
    have ascends : binPath maxSize last ≤ binPath maxSize 20 := by
      unfold binPath
      have powers : (2 : Int) ^ (last + 1) ≤ 2 ^ 21 :=
        pow_le_pow_right₀ (by decide) (by have := stops.inside; omega)
      exact mul_le_mul_of_nonneg_left powers (by omega)
    rw [← first, ← final]
    exact ⟨stops.passed 0 several, wide.trans ascends⟩
  · rintro ⟨narrow, wide⟩
    rw [← first] at narrow
    rw [← final] at wide
    refine ⟨supportedRate_of_bounds rate, planOf_tunes lower count _ _ _ _ _, ?_, .inr ?_⟩
    · apply binWidth.mpr
      rcases stops.reached with rfl | reached
      · exact wide
      · exact reached
    · have several : last ≠ 0 := by
        rintro rfl
        rcases stops.reached with isLast | reached
        · exact absurd isLast (by decide)
        · omega
      have bins : 2 ≤ last + 1 := by omega
      exact bins

/--
The function completes a plan that can be run exactly when the range is not empty, and
the step is one of giant bins, or smaller than half a hop and not finer than the search.
-/
theorem frequencyRange_runnable_iff
    (boxcar : Bool)
    {lower upper maxSize : Int}
    (nonneg : 0 ≤ lower)
    (ordered : lower ≤ upper)
    (fits : upper < 2 ^ 31)
    (step : 1 ≤ maxSize)
    (documented : maxSize ≤ 2800000) :
    ((frequencyRange boxcar lower upper maxSize).isSome ∧
        ∀ plan,
          frequencyRange boxcar lower upper maxSize = some (.planned plan) →
          Runnable maxSize plan) ↔
      lower < upper ∧
        (1000000 ≤ maxSize ∨
          2 * maxSize < hopWidth (upper - lower).toNat ∧
            (hopWidth (upper - lower).toNat : Int) ≤ 2 ^ 21 * maxSize) := by
  obtain ⟨width, isWidth⟩ := Int.eq_ofNat_of_zero_le (show 0 ≤ upper - lower by omega)
  obtain rfl : upper = lower + width := by omega
  rw [isWidth, Int.toNat_natCast]
  rcases Nat.eq_zero_or_pos width with rfl | some
  · rw [Int.natCast_zero, Int.add_zero, frequencyRange_empty]
    simp
  · obtain ⟨last, stops, planned⟩ := frequencyRange_eq boxcar nonneg some fits step
    obtain ⟨atMost, _⟩ := hopWidth_bounds width
    have positive := hopWidth_pos some
    obtain ⟨samples, rateMost, rateLeast⟩ := downsampleFor_bounds boxcar positive atMost
    have ordered : lower < lower + width := by omega
    rw [planned, Option.isSome_some]
    simp only [true_and, Option.some.injEq, RangeResult.planned.injEq, forall_eq', ordered]
    by_cases giant : minimumRate ≤ maxSize
    · obtain ⟨size, rfl⟩ := Int.eq_ofNat_of_zero_le (show 0 ≤ maxSize by omega)
      rw [if_pos giant, Int.toNat_natCast]
      unfold minimumRate at giant
      exact iff_of_true (planOf_giant_runnable (by omega) samples) (.inl giant)
    · rw [if_neg giant, planOf_runnable_iff samples ⟨rateLeast, rateMost⟩ stops step]
      unfold minimumRate at giant
      rw [or_iff_right giant]

/-- The FM band in steps of 125 kHz can be run. -/
theorem frequencyRange_runnable_fm :
    (frequencyRange true 88000000 108000000 125000).isSome ∧
      ∀ plan,
        frequencyRange true 88000000 108000000 125000 = some (.planned plan) →
        Runnable 125000 plan :=
  (frequencyRange_runnable_iff true (by decide) (by decide) (by decide) (by decide)
    (by decide)).mpr ⟨by decide, .inr ⟨by decide, by decide⟩⟩

/--
An empty range divides by zero; a hop of 1 MHz in steps of 500 kHz has two bins; and one
of 2.8 MHz in steps of 1 Hz has bins that are wider.
-/
theorem not_runnable :
    frequencyRange true 100000000 100000000 1000 = none ∧
      (∃ plan,
        frequencyRange true 100000000 101000000 500000 = some (.planned plan) ∧
          ¬ Runnable 500000 plan) ∧
      ∃ plan,
        frequencyRange true 100000000 102800000 1 = some (.planned plan) ∧
          ¬ Runnable 1 plan := by
  refine ⟨frequencyRange_empty true 100000000 1000, ?_, ?_⟩
  · refine ⟨planOf 100000000 1 1000000 1000000 1 1 0, by decide +kernel, ?_⟩
    intro runnable
    have bins : 1 = 0 ∨ 2 ≤ 1 := runnable.bins
    omega
  · refine ⟨planOf 100000000 1 2800000 2800000 21 1 0, by decide +kernel, ?_⟩
    intro runnable
    have tooWide : ¬ ((2800000 : Int) : ℚ) / (1 * 2 ^ 21 : Int) ≤ (1 : Int) := by
      norm_num
    exact tooWide runnable.binWidth

end LibRtlSdr.RtlPower
