import LibRtlSdr.RtlPowerWindowHeadroom

namespace LibRtlSdr.RtlPower

/-!
# The limits of the window

The sums and products of a hop fit an `int16_t` for every captured buffer exactly when
its groups have no more than 255 samples, and each coefficient of 2 or more leaves room
for the extremes of both channels.  Coefficients of a full 256 never do.
-/

/-! ## The sizes of a hop -/

/-- What `frequency_range` lets `scanner` rely on, whatever the crop. -/
structure Sized (tune : TuningState) : Prop where
  passes : tune.downsamplePasses = 0
  bufLen : tune.bufLen = max 16384 (2 * 2 ^ tune.binE * tune.downsample)

theorem exists_of_mem_mapM
    {α β : Type}
    {f : α → Option β}
    {list : List α}
    {results : List β}
    (mapped : list.mapM f = some results) :
    ∀ result ∈ results, ∃ element ∈ list, f element = some result := by
  induction list generalizing results with
  | nil =>
      cases mapped
      exact nofun
  | cons head rest inductionHypothesis =>
      rw [List.mapM_cons] at mapped
      obtain ⟨first, isFirst, mapped⟩ := Option.bind_eq_some_iff.mp mapped
      obtain ⟨others, areOthers, same⟩ := Option.bind_eq_some_iff.mp mapped
      cases same
      rw [List.forall_mem_cons]
      constructor
      · exact ⟨head, List.mem_cons_self, isFirst⟩
      · intro result member
        obtain ⟨element, inRest, isResult⟩ := inductionHypothesis areOthers result member
        exact ⟨element, List.mem_cons_of_mem _ inRest, isResult⟩

/-- The hops of an array. -/
theorem buildPlan_sized
    {lower bwSeen bwUsed tuneCount downsample : Int}
    {binE : Nat}
    {plan : Plan}
    (built :
      buildPlan lower bwSeen bwUsed tuneCount downsample binE 0 = some (.planned plan)) :
    ∀ tune ∈ plan.tunes, Sized tune := by
  unfold buildPlan at built
  split at built
  · cases built
  · obtain ⟨bins, isBins, built⟩ := Option.bind_eq_some_iff.mp built
    obtain ⟨wanted, isWanted, built⟩ := Option.bind_eq_some_iff.mp built
    obtain ⟨tunes, areTunes, built⟩ := Option.bind_eq_some_iff.mp built
    cases built
    intro tune member
    obtain ⟨i, _, isTune⟩ := exists_of_mem_mapM areTunes tune member
    obtain ⟨freq, _, same⟩ := Option.bind_eq_some_iff.mp isTune
    cases same
    have binsValue := (CheckedInt.int?_eq_some_iff.mp isBins).2
    have wantedValue := (CheckedInt.int?_eq_some_iff.mp isWanted).2
    refine ⟨rfl, ?_⟩
    dsimp only
    rw [← binsValue] at wantedValue
    rw [← wantedValue]
    unfold defaultBufLength
    split <;> omega

/-- Without a crop, a plan in the mode of the boxcar filter is built so. -/
theorem frequencyRange_built
    {lower upper maxSize : Int}
    {plan : Plan}
    (planned : frequencyRange true lower upper maxSize = some (.planned plan)) :
    ∃ bwSeen bwUsed tuneCount downsample binE,
      buildPlan lower bwSeen bwUsed tuneCount downsample binE 0 = some (.planned plan) := by
  unfold frequencyRange at planned
  obtain ⟨width, _, planned⟩ := Option.bind_eq_some_iff.mp planned
  obtain ⟨hops, _, planned⟩ := Option.bind_eq_some_iff.mp planned
  obtain ⟨raised, isRaised, planned⟩ := Option.bind_eq_some_iff.mp planned
  obtain ⟨rates, isRates, planned⟩ := Option.bind_eq_some_iff.mp planned
  obtain ⟨binE, _, planned⟩ := Option.bind_eq_some_iff.mp planned
  have noPasses : raised.downsamplePasses = 0 := by
    unfold raiseRate at isRaised
    split at isRaised
    · obtain ⟨downsample, _, isRaised⟩ := Option.bind_eq_some_iff.mp isRaised
      obtain ⟨bwUsed, _, isRaised⟩ := Option.bind_eq_some_iff.mp isRaised
      cases isRaised
      rfl
    · cases isRaised
      rfl
  have same : raised = rates := by
    simpa [roundPasses] using isRates
  rw [← same, noPasses] at planned
  split at planned
  · obtain ⟨tuneCount, _, planned⟩ := Option.bind_eq_some_iff.mp planned
    exact ⟨_, _, _, _, _, planned⟩
  · exact ⟨_, _, _, _, _, planned⟩

/-- The numbers of a hop that is processed. -/
theorem Sized.numbers
    {tune : TuningState}
    (sized : Sized tune)
    (positive : 0 < tune.downsample) :
    ∃ ds n : Nat,
      tune.downsample = ds ∧ 0 < ds ∧ tune.bufLen = (2 * n : Nat) ∧ 8192 ≤ n ∧
        2 ^ tune.binE * ds ≤ n ∧ 2 * n = max 16384 (2 * 2 ^ tune.binE * ds) := by
  obtain ⟨ds, isDs⟩ := Int.eq_ofNat_of_zero_le positive.le
  have product : 2 * 2 ^ tune.binE * ds = 2 * (2 ^ tune.binE * ds) := Nat.mul_assoc _ _ _
  have bufLen := sized.bufLen
  rw [isDs] at bufLen positive
  have isNat :
      max 16384 (2 * 2 ^ tune.binE * (ds : Int)) =
        (max 16384 (2 * 2 ^ tune.binE * ds) : Nat) := by
    push_cast
    rfl
  rw [isNat] at bufLen
  refine ⟨ds, max 8192 (2 ^ tune.binE * ds), isDs, by omega, ?_, le_max_left _ _,
    le_max_right _ _, by omega⟩
  rw [bufLen]
  congr 1
  omega

/-! ## A hop -/

section Hop

variable {sinewave : List Int16} {windowCoefs : Nat → Int} {tune : TuningState} {ds n : Nat}

/-- Both calls of `remove_dc` get a sample of each channel. -/
theorem two_le_length
    (positive : 0 < ds)
    (whole : ds ≤ n) :
    2 ≤ 2 * n / ds := by
  rw [Nat.le_div_iff_mul_le positive]
  omega

/-- The sums and the products of a hop that is processed. -/
theorem scanHop_eq
    (several : tune.binE ≠ 0)
    (isDs : tune.downsample = ds)
    (positive : 0 < ds)
    (isLength : tune.bufLen = (2 * n : Nat))
    (room : 2 ≤ 2 * n / ds)
    (isTable : sinewave.length = 3 * 2 ^ tune.binE / 4)
    (buf8 : Nat → UInt8) :
    ∃ out formed,
      removeDcs (filtered (prepared buf8) (2 * n) ds).fftBuf (2 * n) ds = some out ∧
        scanHop sinewave windowCoefs tune buf8 = some formed ∧
        formed.sums = (filtered (prepared buf8) (2 * n) ds).assigned ∧
        formed.products =
          (frameOffsets (2 * n) ds (2 ^ tune.binE)).flatMap
            (frameProducts windowCoefs (2 ^ tune.binE) out) := by
  obtain ⟨out, called, _⟩ := removeDcs_spec (filtered (prepared buf8) (2 * n) ds).fftBuf room
  obtain ⟨final, frames, products⟩ :=
    @frames_products sinewave windowCoefs _ isTable out
      ((2 * n / ds + (2 * 2 ^ tune.binE - 1)) / (2 * 2 ^ tune.binE)) 0 ⟨out, []⟩
      (fun _ _ => rfl)
  have bins : 2 ^ tune.binE ≠ 1 := (Nat.one_lt_two_pow several).ne'
  refine ⟨out, ⟨(filtered (prepared buf8) (2 * n) ds).assigned, final.products⟩, called, ?_,
    rfl, ?_⟩
  · unfold scanHop
    rw [if_neg bins, isDs, isLength, if_neg (by omega), if_neg (by omega)]
    dsimp only
    rw [Int.toNat_natCast, Int.toNat_natCast, called, Option.bind_eq_bind, Option.bind_some,
      frameOffsets, frames]
    rfl
  · dsimp only
    rw [products, List.nil_append, frameOffsets]

/-- A product of a frame. -/
theorem mem_frameProducts
    {binLen offset : Nat}
    {out : Nat → Int16}
    {value : Int} :
    value ∈ frameProducts windowCoefs binLen out offset ↔
      ∃ j < binLen, ∃ channel < 2,
        value = (out (channel + (offset + j * 2))).toInt * windowCoefs j := by
  unfold frameProducts turnProducts
  rw [List.mem_flatMap]
  constructor
  · rintro ⟨j, inFrame, isProduct⟩
    refine ⟨j, List.mem_range.mp inFrame, ?_⟩
    rw [List.mem_pair] at isProduct
    rcases isProduct with isRe | isIm
    · exact ⟨0, by decide, by rw [isRe, Nat.zero_add]⟩
    · exact ⟨1, by decide, by rw [isIm, Nat.add_comm]⟩
  · rintro ⟨j, inFrame, channel, isChannel, isProduct⟩
    refine ⟨j, List.mem_range.mpr inFrame, ?_⟩
    rw [List.mem_pair]
    obtain rfl | rfl : channel = 0 ∨ channel = 1 := by omega
    · rw [Nat.zero_add] at isProduct
      exact .inl isProduct
    · rw [Nat.add_comm] at isProduct
      exact .inr isProduct

/-- The groups of the first frame are multiplied. -/
theorem product_of_group
    {out : Nat → Int16}
    {binLen j channel : Nat}
    (room : 0 < 2 * n / ds)
    (inFrame : j < binLen)
    (isChannel : channel < 2) :
    (samples out channel j).toInt * windowCoefs j ∈
      (frameOffsets (2 * n) ds binLen).flatMap (frameProducts windowCoefs binLen out) := by
  rw [List.mem_flatMap]
  refine ⟨0, (mem_frameOffsets (by omega)).mpr ⟨room, Nat.dvd_zero _⟩, ?_⟩
  rw [mem_frameProducts]
  refine ⟨j, inFrame, channel, isChannel, ?_⟩
  rw [samples, Nat.zero_add, Nat.mul_comm 2]

/-- What is multiplied is in the buffer. -/
theorem group_of_product
    {out : Nat → Int16}
    {binE : Nat}
    (positive : 0 < ds)
    (isLength : 2 * n = max 16384 (2 * 2 ^ binE * ds))
    {value : Int}
    (member :
      value ∈
        (frameOffsets (2 * n) ds (2 ^ binE)).flatMap
          (frameProducts windowCoefs (2 ^ binE) out)) :
    ∃ k < n, ∃ j < 2 ^ binE, ∃ channel < 2,
      value = (samples out channel k).toInt * windowCoefs j := by
  obtain ⟨offset, isFrame, isProduct⟩ := List.mem_flatMap.mp member
  obtain ⟨j, inFrame, channel, isChannel, rfl⟩ := mem_frameProducts.mp isProduct
  obtain ⟨_, frame, isOffset⟩ := (mem_frameOffsets (Nat.two_pow_pos binE)).mp isFrame
  rw [isLength] at isFrame
  have inside := frame_inside positive isFrame
  have even : offset = 2 * (2 ^ binE * frame) := by
    rw [isOffset, Nat.mul_assoc]
  refine ⟨2 ^ binE * frame + j, by omega, j, inFrame, channel, isChannel, ?_⟩
  have place :
      channel + (offset + j * 2) = channel + 2 * (2 ^ binE * frame + j) := by
    omega
  rw [samples, place]

end Hop

/-! ## The limits -/

/-- No sum and no product of a hop changes when it becomes an `int16_t`. -/
def Untruncated
    (sinewave : List Int16)
    (windowCoefs : Nat → Int)
    (tune : TuningState)
    (buf8 : Nat → UInt8) : Prop :=
  ∀ formed,
    scanHop sinewave windowCoefs tune buf8 = some formed →
    ∀ value ∈ formed.sums ++ formed.products, -32768 ≤ value ∧ value ≤ 32767

/-- Groups and coefficients that leave room for every captured buffer. -/
def Headroom (windowCoefs : Nat → Int) (tune : TuningState) : Prop :=
  tune.binE = 0 ∨ tune.downsample ≤ 0 ∨
    tune.downsample ≤ 255 ∧
      ∀ j < 2 ^ tune.binE, 2 ≤ windowCoefs j →
        ∀ channel < 2,
          HasRoom (windowCoefs j) tune.downsample.toNat
            (covered tune.bufLen.toNat tune.downsample.toNat channel)
            (dcLength tune.bufLen.toNat tune.downsample.toNat channel)

section Limits

variable {sinewave : List Int16} {windowCoefs : Nat → Int} {tune : TuningState}

/-- A hop that forms nothing. -/
theorem scanHop_idle
    (idle : tune.binE = 0 ∨ tune.downsample ≤ 0)
    (buf8 : Nat → UInt8) :
    Untruncated sinewave windowCoefs tune buf8 := by
  intro formed scanned
  unfold scanHop at scanned
  split at scanned
  · cases scanned
    exact fun _ member => absurd member List.not_mem_nil
  · rename_i several
    have isIdle : tune.downsample ≤ 0 := by
      rcases idle with none | isIdle
      · rw [none] at several
        exact absurd rfl several
      · exact isIdle
    split at scanned
    · cases scanned
    · rw [if_pos (by omega)] at scanned
      split at scanned
      · cases scanned
      · cases scanned
        exact fun _ member => absurd member List.not_mem_nil

section Numbers

variable {ds n : Nat}
variable (isDs : tune.downsample = ds) (positive : 0 < ds)
variable (isBuffer : tune.bufLen = (2 * n : Nat)) (long : 8192 ≤ n)

include isDs positive isBuffer long

/-- Within the limits nothing is truncated. -/
theorem untruncated_of_headroom
    (several : tune.binE ≠ 0)
    (isLength : 2 * n = max 16384 (2 * 2 ^ tune.binE * ds))
    (isTable : sinewave.length = 3 * 2 ^ tune.binE / 4)
    (coefs : ∀ j < 2 ^ tune.binE, 0 ≤ windowCoefs j ∧ windowCoefs j ≤ 256)
    (few : ds ≤ 255)
    (room :
      ∀ j < 2 ^ tune.binE, 2 ≤ windowCoefs j → ∀ channel < 2,
        HasRoom (windowCoefs j) ds (covered (2 * n) ds channel)
          (dcLength (2 * n) ds channel))
    (buf8 : Nat → UInt8) :
    Untruncated sinewave windowCoefs tune buf8 := by
  have bytes := prepared_byteSample buf8
  have least := two_le_length positive (show ds ≤ n by omega)
  obtain ⟨out, formed, called, scanned, sums, products⟩ :=
    @scanHop_eq _ windowCoefs _ _ _ several isDs positive isBuffer least isTable buf8
  intro formed' scanned' value member
  rw [scanned, Option.some.injEq] at scanned'
  subst scanned'
  rw [List.mem_append, sums, products] at member
  rcases member with isSum | isProduct
  · exact filtered_assigned positive few (by omega) bytes value isSum
  · obtain ⟨k, inside, j, inFrame, channel, isChannel, rfl⟩ :=
      group_of_product positive isLength isProduct
    obtain ⟨nonneg, _⟩ := coefs j inFrame
    rcases Int.lt_or_le (windowCoefs j) 2 with isSmall | isLarge
    · -- the product is 0 or the value, which is an `int16_t` already
      have below := (samples out channel k).le_toInt
      have above := (samples out channel k).toInt_lt
      obtain isZero | isOne : windowCoefs j = 0 ∨ windowCoefs j = 1 := by omega
      · rw [isZero, Int.mul_zero]
        omega
      · rw [isOne, Int.mul_one]
        omega
    · obtain ⟨high, low⟩ := room j inFrame isLarge channel isChannel
      have peakFits :
          peak ds (covered (2 * n) ds channel) (dcLength (2 * n) ds channel) ≤ 32767 := by
        by_contra wraps
        have twice :=
          Int.mul_le_mul_of_nonneg_left isLarge
            (show 0 ≤ peak ds (covered (2 * n) ds channel) (dcLength (2 * n) ds channel) by
              omega)
        omega
      have troughFits :
          -32768 ≤ trough ds (covered (2 * n) ds channel) (dcLength (2 * n) ds channel) := by
        by_contra wraps
        have twice :=
          Int.mul_le_mul_of_nonpos_left
            (show trough ds (covered (2 * n) ds channel) (dcLength (2 * n) ds channel) ≤ 0 by
              omega)
            isLarge
        omega
      obtain ⟨atLeast, atMost⟩ :=
        balanced_between positive few long bytes isChannel called
          ⟨troughFits, peakFits⟩ inside
      have above := Int.mul_le_mul_of_nonneg_right atMost nonneg
      have below := Int.mul_le_mul_of_nonneg_right atLeast nonneg
      exact ⟨low.trans below, above.trans high⟩

/-- Groups of more than 255 samples have a sum that is truncated. -/
theorem not_untruncated_of_many
    (several : tune.binE ≠ 0)
    (frame : 2 ^ tune.binE * ds ≤ n)
    (isTable : sinewave.length = 3 * 2 ^ tune.binE / 4)
    (many : 256 ≤ ds) :
    ¬ Untruncated sinewave windowCoefs tune (fun _ => 255) := by
  intro untruncated
  have least :=
    two_le_length positive ((Nat.le_mul_of_pos_left ds (Nat.two_pow_pos _)).trans frame)
  obtain ⟨_, formed, _, scanned, sums, _⟩ :=
    @scanHop_eq _ windowCoefs _ _ _ several isDs positive isBuffer least isTable
      (fun _ => 255)
  have tooLarge :=
    @filtered_overflow (prepared fun _ => 255) _ _ many (show 256 < n by omega)
      (fun place => prepared_toInt _ place)
  rw [← sums] at tooLarge
  have fits := untruncated formed scanned 32768 (List.mem_append_left _ tooLarge)
  omega

/-- A group against the rest has a product that is truncated, if its product is. -/
theorem not_untruncated_of_spike
    (several : tune.binE ≠ 0)
    (frame : 2 ^ tune.binE * ds ≤ n)
    (isTable : sinewave.length = 3 * 2 ^ tune.binE / 4)
    (few : ds ≤ 255)
    {j channel : Nat}
    (inFrame : j < 2 ^ tune.binE)
    (isChannel : channel < 2)
    {inside outside : UInt8}
    {value : Int}
    (isContrast :
      contrast ds (covered (2 * n) ds channel) (dcLength (2 * n) ds channel)
          ((inside.toNat : Int) - 127) ((outside.toNat : Int) - 127) =
        value)
    (fits : -32768 ≤ value ∧ value ≤ 32767)
    (exceeds : ¬ (-32768 ≤ value * windowCoefs j ∧ value * windowCoefs j ≤ 32767)) :
    ¬ Untruncated sinewave windowCoefs tune (spike ds j inside outside) := by
  intro untruncated
  obtain ⟨inChannel, inCovered⟩ := frame_covered positive frame isChannel
  have least := two_le_length positive (show ds ≤ n by omega)
  obtain ⟨out, formed, called, scanned, _, products⟩ :=
    @scanHop_eq _ windowCoefs _ _ _ several isDs positive isBuffer least isTable
      (spike ds j inside outside)
  have whole : (j + 1) * ds ≤ 2 ^ tune.binE * ds := Nat.mul_le_mul_right ds inFrame
  have isDifference :
      difference (prepared (spike ds j inside outside)) ds n channel j = value := by
    rw [← isContrast]
    unfold difference contrast
    rw [spike_groupSum positive isChannel (whole.trans frame),
      spike_total positive isChannel (whole.trans inCovered)]
  have isValue :=
    balanced_cases positive few long (prepared_byteSample _) isChannel called
      (show j < n from
        inFrame.trans_le ((Nat.le_mul_of_pos_right _ positive).trans frame))
  rw [if_pos (inFrame.trans_le inChannel), isDifference] at isValue
  have isProduct :=
    @product_of_group windowCoefs _ _ out _ _ _ (show 0 < 2 * n / ds by omega) inFrame
      isChannel
  rw [← products, isValue fits.1 fits.2] at isProduct
  exact exceeds (untruncated formed scanned _ (List.mem_append_right _ isProduct))

/-- So a coefficient without room has one for some captured buffer. -/
theorem exists_truncated_product
    (several : tune.binE ≠ 0)
    (frame : 2 ^ tune.binE * ds ≤ n)
    (isTable : sinewave.length = 3 * 2 ^ tune.binE / 4)
    (few : ds ≤ 255)
    {j channel : Nat}
    (inFrame : j < 2 ^ tune.binE)
    (isLarge : 2 ≤ windowCoefs j)
    (isChannel : channel < 2)
    (noRoom :
      ¬ HasRoom (windowCoefs j) ds (covered (2 * n) ds channel)
          (dcLength (2 * n) ds channel)) :
    ∃ inside outside,
      ¬ Untruncated sinewave windowCoefs tune (spike ds j inside outside) := by
  obtain ⟨lengthLeast, _, _⟩ := dcLength_bounds positive few long isChannel
  have inSum :
      3 * covered (2 * n) ds channel ≤ 2 * (dcLength (2 * n) ds channel * ds) := by
    have groups :=
      Nat.mul_le_mul_right ds
        (show 3 * ((dcLength (2 * n) ds channel + 1) / 2) ≤
          2 * dcLength (2 * n) ds channel by omega)
    have atMost : covered (2 * n) ds channel ≤ (dcLength (2 * n) ds channel + 1) / 2 * ds :=
      min_le_left _ _
    rw [Nat.mul_assoc, Nat.mul_assoc] at groups
    omega
  obtain ⟨inside, outside, fits, exceeds⟩ :=
    exists_contrast few (show 43 ≤ dcLength (2 * n) ds channel by omega) inSum isLarge noRoom
  exact
    ⟨inside, outside,
      not_untruncated_of_spike isDs positive isBuffer long several frame isTable few inFrame
        isChannel rfl fits exceeds⟩

/-- A full coefficient has no room, whatever the hop. -/
theorem not_headroom_of_full
    (several : tune.binE ≠ 0)
    {j : Nat}
    (inFrame : j < 2 ^ tune.binE)
    (isFull : windowCoefs j = 256) :
    ¬ Headroom windowCoefs tune := by
  unfold Headroom
  rw [or_iff_right several, or_iff_right (by omega), isDs, isBuffer, Int.toNat_natCast,
    Int.toNat_natCast]
  rintro ⟨few, room⟩
  have isLarge : 2 ≤ windowCoefs j := by omega
  obtain ⟨high, _⟩ := room j inFrame isLarge 0 (by decide)
  obtain ⟨least, _, several⟩ :=
    dcLength_bounds positive (show ds ≤ 255 by omega) long (show 0 < 2 by decide)
  have extreme :=
    (@between_of_several _ _ _ ds (128 * ds) (show 0 < dcLength (2 * n) ds 0 by omega) several
      (Nat.le_refl ds) ⟨by omega, Int.le_refl _⟩).2
  rw [isFull] at high
  omega

end Numbers

/--
For every hop of a plan that `frequency_range` builds in the mode of the boxcar filter,
whatever the crop has made of its numbers, and for coefficients from 0 to 256: nothing is
truncated, whatever is captured, exactly within the limits.
-/
theorem windowing_untruncated_iff
    {lower bwSeen bwUsed tuneCount downsample : Int}
    {binE : Nat}
    {plan : Plan}
    (built :
      buildPlan lower bwSeen bwUsed tuneCount downsample binE 0 = some (.planned plan))
    (member : tune ∈ plan.tunes)
    (isTable : sinewave.length = 3 * 2 ^ tune.binE / 4)
    (coefs : ∀ j < 2 ^ tune.binE, 0 ≤ windowCoefs j ∧ windowCoefs j ≤ 256) :
    (∀ buf8, Untruncated sinewave windowCoefs tune buf8) ↔ Headroom windowCoefs tune := by
  have sized := buildPlan_sized built tune member
  by_cases idle : tune.binE = 0 ∨ tune.downsample ≤ 0
  · have headroom : Headroom windowCoefs tune := by
      rcases idle with none | isIdle
      · exact .inl none
      · exact .inr (.inl isIdle)
    exact iff_of_true (scanHop_idle idle) headroom
  · rw [not_or, Int.not_le] at idle
    obtain ⟨several, runs⟩ := idle
    obtain ⟨ds, n, isDs, positive, isBuffer, long, frame, isLength⟩ := sized.numbers runs
    unfold Headroom
    rw [or_iff_right several, or_iff_right (by omega), isDs, isBuffer, Int.toNat_natCast,
      Int.toNat_natCast]
    constructor
    · intro untruncated
      have few : ds ≤ 255 := by
        by_contra many
        exact
          not_untruncated_of_many isDs positive isBuffer long several frame isTable
            (by omega) (untruncated _)
      refine ⟨by omega, ?_⟩
      intro j inFrame isLarge channel isChannel
      by_contra noRoom
      obtain ⟨inside, outside, truncates⟩ :=
        exists_truncated_product isDs positive isBuffer long several frame isTable few
          inFrame isLarge isChannel noRoom
      exact truncates (untruncated _)
    · rintro ⟨few, room⟩
      exact
        untruncated_of_headroom isDs positive isBuffer long several isLength isTable coefs
          (by omega) room

end Limits

/-- The first hop of the FM band in steps of 125 kHz. -/
def fmHop : TuningState where
  freq := 89250000
  rate := 2500000
  binE := 5
  downsample := 1
  downsamplePasses := 0
  bufLen := 16384

/-- Coefficients of half a unit leave room for it. -/
theorem windowing_untruncated_half :
    frequencyRange true 88000000 108000000 125000 =
        some (.planned (planOf 88000000 8 2500000 2500000 5 1 0)) ∧
      ∀ buf8, Untruncated (List.replicate 24 0) (fun _ => 128) fmHop buf8 := by
  have built :
      buildPlan 88000000 2500000 2500000 8 1 5 0 =
        some (.planned (planOf 88000000 8 2500000 2500000 5 1 0)) := by
    decide +kernel
  have first : HasRoom 128 1 (covered 16384 1 0) (dcLength 16384 1 0) := ⟨by decide, by decide⟩
  have second : HasRoom 128 1 (covered 16384 1 1) (dcLength 16384 1 1) :=
    ⟨by decide, by decide⟩
  refine ⟨by decide +kernel, ?_⟩
  apply
    (@windowing_untruncated_iff (List.replicate 24 0) (fun _ => 128) fmHop _ _ _ _ _ _ _
      built (by decide) rfl (fun _ _ => by decide)).mpr
  refine .inr (.inr ⟨by decide, ?_⟩)
  intro j _ _ channel isChannel
  obtain rfl | rfl : channel = 0 ∨ channel = 1 := by omega
  · exact first
  · exact second

/--
With the coefficients of the rectangle, a largest byte among silence becomes 32768; and
so does the sum of 256 largest bytes in a hop of 10 kHz.
-/
theorem not_windowing_untruncated :
    (∃ plan,
        frequencyRange true 88000000 108000000 125000 = some (.planned plan) ∧
          fmHop ∈ plan.tunes ∧
          ¬ Untruncated (List.replicate 24 0) (fun _ => 256) fmHop (spike 1 0 255 127)) ∧
      ∃ plan,
        frequencyRange true 100000000 100010000 1000 = some (.planned plan) ∧
          ∃ tune ∈ plan.tunes,
            ¬ Untruncated (List.replicate 12 0) (fun _ => 0) tune (fun _ => 255) := by
  constructor
  · refine ⟨planOf 88000000 8 2500000 2500000 5 1 0, by decide +kernel, by decide, ?_⟩
    exact
      @not_untruncated_of_spike _ _ fmHop 1 8192 rfl (by decide) rfl (by decide) (by decide)
        (by decide) rfl (by decide) 0 0 (by decide) (by decide) _ _ 128 (by decide)
        (by decide) (by decide)
  · refine ⟨planOf 100000000 1 10000 2800000 4 280 0, by decide +kernel, ?_⟩
    refine
      ⟨⟨100005000, 2800000, 4, 280, 0, 16384⟩, by decide, ?_⟩
    exact
      @not_untruncated_of_many _ _ _ 280 8192 rfl (by decide) rfl (by decide) (by decide)
        (by decide) rfl (by decide)

end LibRtlSdr.RtlPower
