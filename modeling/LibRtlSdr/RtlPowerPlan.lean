import LibRtlSdr.CheckedInt
import LibRtlSdr.RtlSdrR82xx
import LibRtlSdr.ThresholdSearch
import Mathlib.Data.Nat.Log
import Mathlib.Data.Rat.Floor
import Mathlib.Tactic.Linarith
import Mathlib.Tactic.Ring

namespace LibRtlSdr.RtlPower

/-!
# The scan plan of `rtl_power`

`frequency_range` splits a range into hops of equal width, raises the rate of a narrow
range, and searches for a number of bins that is a power of two and makes them no wider
than the step.  The plan here is the one without cropping, where the quotients by
`1.0 - crop` are the numbers themselves.
-/

open CheckedInt (add? sub? mul? div?)

/-! ## Source -/

/-- `MAXIMUM_RATE`. -/
def maximumRate : Int :=
  2800000

/-- `MINIMUM_RATE`. -/
def minimumRate : Int :=
  1000000

/-- `MAX_TUNES`. -/
def maxTunes : Int :=
  3000

/-- `DEFAULT_BUF_LENGTH`. -/
def defaultBufLength : Int :=
  16384

/-- `struct tuning_state`, with what the plan decides. -/
structure TuningState where
  freq : Int
  rate : Int
  binE : Nat
  downsample : Int
  downsamplePasses : Nat
  bufLen : Int
deriving DecidableEq

/-- What `frequency_range` reports, and the `tunes` that it fills. -/
structure Plan where
  bwSeen : Int
  bwUsed : Int
  binE : Nat
  downsample : Int
  downsamplePasses : Nat
  bufLen : Int
  tunes : List TuningState
deriving DecidableEq

/-- `frequency_range` fills the plan, or it exits. -/
inductive RangeResult where
  | planned (plan : Plan)
  | bandwidthTooWide
deriving DecidableEq

/-- `tune_count` and `bw_seen`; without cropping, `bw_used` is the latter. -/
structure Hops where
  tuneCount : Int
  bwSeen : Int

/-- The turns of the first loop at `i`, of which `left` are left. -/
def searchHops (width : Int) : Nat → Nat → Hops → Option Hops
  | 0, _, hops =>
      some hops
  | left + 1, i, hops => do
      let bwSeen ← div? width i
      if maximumRate < bwSeen then
        searchHops width left (i + 1) { hops with bwSeen := bwSeen }
      else
        some ⟨i, bwSeen⟩

/-- `tune_count`, `bw_used`, `downsample` and `downsample_passes` behind the two corrections. -/
structure Rates where
  tuneCount : Int
  bwUsed : Int
  downsample : Int
  downsamplePasses : Nat

/-- "unless small bandwidth". -/
def raiseRate (hops : Hops) : Option Rates :=
  if hops.bwSeen < minimumRate then do
    let downsample ← div? maximumRate hops.bwSeen
    let bwUsed ← mul? hops.bwSeen downsample
    some ⟨1, bwUsed, downsample, 0⟩
  else
    some ⟨hops.tuneCount, hops.bwSeen, 1, 0⟩

/-- The powers of two of the recursive filter; the `log2` of an `int` is rounded down. -/
def roundPasses (boxcar : Bool) (bwSeen : Int) (rates : Rates) : Option Rates :=
  if boxcar = false ∧ 1 < rates.downsample then do
    let passes := Nat.log 2 rates.downsample.toNat
    let bwUsed ← mul? bwSeen (2 ^ passes)
    some ⟨rates.tuneCount, bwUsed, 2 ^ passes, passes⟩
  else
    some rates

/--
The turns of the second loop at `i`, of which `left` are left behind it.  The quotient
of two numbers of this size is rounded to the other side of no whole number.
-/
def searchBins (bwUsed downsample maxSize : Int) : Nat → Nat → Option Nat
  | 0, i => do
      let _ ← mul? (2 ^ i) downsample
      some i
  | left + 1, i => do
      let bins ← mul? (2 ^ i) downsample
      if (bwUsed : ℚ) / bins ≤ maxSize then
        some i
      else
        searchBins bwUsed downsample maxSize left (i + 1)

/-- `ts->freq` of hop `i`. -/
def hopFreq (lower bwSeen : Int) (i : Nat) : Option Int := do
  let offset ← mul? i bwSeen
  let start ← add? lower offset
  add? start (bwSeen.tdiv 2)

/-- The end of `frequency_range`: the size of the buffer, and the array. -/
def buildPlan
    (lower bwSeen bwUsed tuneCount downsample : Int)
    (binE downsamplePasses : Nat) :
    Option RangeResult :=
  if maxTunes < tuneCount then
    some .bandwidthTooWide
  else do
    let bins ← mul? 2 (2 ^ binE)
    let wanted ← mul? bins downsample
    let bufLen := if wanted < defaultBufLength then defaultBufLength else wanted
    let tunes ← (List.range tuneCount.toNat).mapM fun i => do
      let freq ← hopFreq lower bwSeen i
      some (TuningState.mk freq bwUsed binE downsample downsamplePasses bufLen)
    some
      (.planned
        { bwSeen := bwSeen
          bwUsed := bwUsed
          binE := binE
          downsample := downsample
          downsamplePasses := downsamplePasses
          bufLen := bufLen
          tunes := tunes })

/-- `frequency_range` behind its parser, with a crop of 0. -/
def frequencyRange (boxcar : Bool) (lower upper maxSize : Int) : Option RangeResult := do
  let width ← sub? upper lower
  let hops ← searchHops width 1499 1 ⟨0, 0⟩
  let raised ← raiseRate hops
  let rates ← roundPasses boxcar hops.bwSeen raised
  let binE ← searchBins rates.bwUsed rates.downsample maxSize 20 1
  -- unless giant bins
  if minimumRate ≤ maxSize then do
    let tuneCount ← div? width maxSize
    buildPlan lower maxSize maxSize tuneCount rates.downsample 0 rates.downsamplePasses
  else
    buildPlan lower hops.bwSeen rates.bwUsed rates.tuneCount rates.downsample binE
      rates.downsamplePasses

/-! ## The hops -/

/-- The number of hops that keeps each of them within `MAXIMUM_RATE`. -/
def hopCount (width : Nat) : Nat :=
  width / 2800001 + 1

/-- The width of each hop. -/
def hopWidth (width : Nat) : Nat :=
  width / hopCount width

/-- A quotient of numbers that are not negative. -/
theorem div?_natCast
    {value divisor : Nat}
    (fits : value < 2 ^ 31)
    (positive : 0 < divisor) :
    div? value divisor = some ((value / divisor : Nat) : Int) := by
  have valueFits : CheckedInt.Fits value := by
    unfold CheckedInt.Fits
    omega
  rw [CheckedInt.div?_of_pos valueFits (by omega), Int.ofNat_tdiv]

/-- The loop finds this number. -/
theorem searchHops_eq
    {width left i : Nat}
    {hops : Hops}
    (fits : width < 2 ^ 31)
    (positive : 0 < i)
    (atMost : i ≤ hopCount width)
    (enough : hopCount width < i + left) :
    searchHops width left i hops = some ⟨hopCount width, hopWidth width⟩ := by
  have tooWide : ∀ i, 0 < i → (2800001 ≤ width / i ↔ i < hopCount width) := by
    intro i positive
    unfold hopCount
    rw [Nat.le_div_iff_mul_le positive, Nat.lt_succ_iff,
      Nat.le_div_iff_mul_le (by decide), Nat.mul_comm]
  induction left generalizing i hops with
  | zero =>
      exact absurd enough (Nat.not_lt.mpr atMost)
  | succ left inductionHypothesis =>
      have here := tooWide i positive
      rw [searchHops, div?_natCast fits positive, Option.bind_eq_bind, Option.bind_some]
      unfold maximumRate
      split
      · exact inductionHypothesis (Nat.succ_pos i) (by omega) (by omega)
      · have isCount : i = hopCount width := by omega
        rw [isCount]
        rfl

/-- Hops side by side leave less than one hertz of each. -/
theorem hopWidth_remainder (width : Nat) :
    hopCount width * hopWidth width ≤ width ∧
      width < hopCount width * hopWidth width + hopCount width := by
  have division := Nat.div_add_mod width (hopCount width)
  have remainder := Nat.mod_lt width (show 0 < hopCount width from Nat.succ_pos _)
  unfold hopWidth
  omega

/-- A hop is not too wide, and two or more are not narrow. -/
theorem hopWidth_bounds (width : Nat) :
    hopWidth width ≤ 2800000 ∧
      (hopWidth width < 1400000 → hopCount width = 1 ∧ hopWidth width = width) := by
  obtain ⟨inside, beyond⟩ := hopWidth_remainder width
  have positive : 0 < hopCount width := Nat.succ_pos _
  constructor
  · have notMore : width < 2800001 * hopCount width := by
      unfold hopCount
      omega
    apply Nat.le_of_lt_succ
    apply Nat.lt_of_mul_lt_mul_left (a := hopCount width)
    omega
  · intro narrow
    have isOne : hopCount width = 1 := by
      by_contra several
      have before : 2800001 * (hopCount width - 1) ≤ width := by
        unfold hopCount
        omega
      have product : hopCount width * hopWidth width ≤ hopCount width * 1399999 :=
        Nat.mul_le_mul_left _ (by omega)
      omega
    refine ⟨isOne, ?_⟩
    rw [hopWidth, isOne, Nat.div_one]

/-- The hops of a range that is not empty are not empty. -/
theorem hopWidth_pos
    {width : Nat}
    (some : 0 < width) :
    0 < hopWidth width := by
  by_contra empty
  have narrow := (hopWidth_bounds width).2 (by omega)
  omega

/-! ## The rate -/

/-- `downsample_passes`. -/
def passesFor (boxcar : Bool) (bw : Nat) : Nat :=
  if boxcar = false ∧ bw < 1000000 then Nat.log 2 (2800000 / bw) else 0

/-- `downsample`. -/
def downsampleFor (boxcar : Bool) (bw : Nat) : Nat :=
  if bw < 1000000 then
    if boxcar then 2800000 / bw else 2 ^ passesFor boxcar bw
  else
    1

/-- The raised rate is one that the program calls its own. -/
theorem downsampleFor_bounds
    (boxcar : Bool)
    {bw : Nat}
    (some : 0 < bw)
    (atMost : bw ≤ 2800000) :
    0 < downsampleFor boxcar bw ∧
      bw * downsampleFor boxcar bw ≤ 2800000 ∧
      1000000 ≤ bw * downsampleFor boxcar bw := by
  unfold downsampleFor
  split
  · rename_i narrow
    have division := Nat.div_add_mod 2800000 bw
    have remainder := Nat.mod_lt 2800000 some
    have quotient : 2 ≤ 2800000 / bw := by
      rw [Nat.le_div_iff_mul_le some]
      omega
    split
    · omega
    · rename_i recursive
      have passes : passesFor boxcar bw = Nat.log 2 (2800000 / bw) := by
        unfold passesFor
        rw [if_pos ⟨by simpa using recursive, narrow⟩]
      have below := Nat.pow_log_le_self 2 (show 2800000 / bw ≠ 0 by omega)
      have above := Nat.lt_pow_succ_log_self (show 1 < 2 by decide) (2800000 / bw)
      rw [passes]
      have most := Nat.mul_le_mul_left bw below
      have least := Nat.mul_le_mul_left bw above
      rw [Nat.pow_succ] at least
      refine ⟨Nat.two_pow_pos _, by omega, ?_⟩
      have half :
          bw * (2 ^ Nat.log 2 (2800000 / bw) * 2) =
            2 * (bw * 2 ^ Nat.log 2 (2800000 / bw)) := by
        ring
      rw [half, Nat.mul_succ] at least
      omega
  · omega

/-- A product of numbers that are not negative. -/
theorem mul?_natCast
    {first second : Nat}
    (fits : first * second < 2 ^ 31) :
    mul? first second = some ((first * second : Nat) : Int) := by
  rw [mul?, ← Int.natCast_mul, CheckedInt.int?_of_fits]
  unfold CheckedInt.Fits
  omega

/-- The two corrections of a hop that is not empty. -/
theorem rates_eq
    (boxcar : Bool)
    {count bw : Nat}
    (positive : 0 < bw)
    (atMost : bw ≤ 2800000)
    (single : bw < 1400000 → count = 1) :
    ((raiseRate ⟨count, bw⟩).bind fun raised => roundPasses boxcar bw raised) =
      some
        ⟨count, (bw * downsampleFor boxcar bw : Nat), downsampleFor boxcar bw,
          passesFor boxcar bw⟩ := by
  have limit : maximumRate = (2800000 : Nat) := rfl
  have rateFits := (downsampleFor_bounds boxcar positive atMost).2.1
  have lowest : ((bw : Int) < minimumRate) ↔ bw < 1000000 := by
    unfold minimumRate
    omega
  unfold raiseRate
  simp only [lowest]
  by_cases narrow : bw < 1000000
  · have division := Nat.div_mul_le_self 2800000 bw
    have several : 2 ≤ 2800000 / bw := by
      rw [Nat.le_div_iff_mul_le positive]
      omega
    rw [if_pos narrow, limit, div?_natCast (by decide) positive, Option.bind_eq_bind,
      Option.bind_some, mul?_natCast (by rw [Nat.mul_comm]; omega), Option.bind_some,
      Option.bind_some, roundPasses, single (by omega)]
    cases boxcar with
    | true =>
        rw [if_neg (by simp)]
        simp [downsampleFor, passesFor, narrow]
    | false =>
        have passes : passesFor false bw = Nat.log 2 (2800000 / bw) := by
          simp [passesFor, narrow]
        have rate : downsampleFor false bw = 2 ^ passesFor false bw := by
          simp [downsampleFor, narrow]
        have rounded : (2 : Int) ^ passesFor false bw = (downsampleFor false bw : Nat) := by
          rw [rate]
          push_cast
          rfl
        rw [if_pos ⟨rfl, by dsimp only; omega⟩]
        dsimp only
        rw [Int.toNat_natCast, ← passes, rounded, mul?_natCast (by omega),
          Option.bind_eq_bind, Option.bind_some]
        rfl
  · rw [if_neg narrow, Option.bind_some, roundPasses, if_neg (by simp)]
    simp [downsampleFor, passesFor, narrow]

/-! ## The bins -/

/-- The widest hop for a number of bins, with 2 bins at the first place. -/
def binPath (maxSize : Int) : Nat → Int :=
  fun place => maxSize * 2 ^ (place + 1)

/-- The quotient is at most the step when the hop is not too wide. -/
theorem binSize_le_iff
    {bw downsample : Nat}
    (positive : 0 < downsample)
    {maxSize : Int}
    (place : Nat) :
    (((bw * downsample : Nat) : Int) : ℚ) / ((2 ^ (place + 1) * downsample : Nat) : Int) ≤
        maxSize ↔
      (bw : Int) ≤ binPath maxSize place := by
  have some : (0 : ℚ) < ((2 ^ (place + 1) * downsample : Nat) : Int) := by
    have isPositive : 0 < 2 ^ (place + 1) * downsample :=
      Nat.mul_pos (Nat.two_pow_pos _) positive
    exact_mod_cast isPositive
  rw [div_le_iff₀ some]
  have inInt :
      ((bw * downsample : Nat) : Int) ≤
          maxSize * ((2 ^ (place + 1) * downsample : Nat) : Int) ↔
        (bw : Int) ≤ binPath maxSize place := by
    unfold binPath
    push_cast
    rw [← mul_assoc]
    exact mul_le_mul_iff_left₀ (by exact_mod_cast positive)
  rw [← inInt]
  exact_mod_cast Iff.rfl

/-- The numbers of bins that are tried before the last one. -/
theorem bins_small
    {bw downsample place : Nat}
    {maxSize : Int}
    (some : 0 < bw)
    (rate : bw * downsample ≤ 2800000)
    (step : 1 ≤ maxSize)
    (passed : ∀ earlier < place, binPath maxSize earlier < bw) :
    2 ^ (place + 1) * downsample ≤ 5600000 := by
  cases place with
  | zero =>
      have least := Nat.le_mul_of_pos_left downsample some
      omega
  | succ place =>
      have before := passed place (Nat.lt_succ_self place)
      unfold binPath at before
      have power : (2 : Int) ^ (place + 1) ≤ maxSize * 2 ^ (place + 1) :=
        le_mul_of_one_le_left (by positivity) step
      have narrow : 2 ^ (place + 1) < bw := by
        have inInt : (2 : Int) ^ (place + 1) < bw := power.trans_lt before
        exact_mod_cast inInt
      have product := Nat.mul_le_mul_right downsample narrow.le
      rw [Nat.pow_succ, Nat.mul_assoc, Nat.mul_left_comm]
      omega

/-- The loop stops at the first number of bins that is enough, or at the last. -/
theorem searchBins_stops
    {bw downsample : Nat}
    {maxSize : Int}
    (positive : 0 < downsample)
    (some : 0 < bw)
    (rate : bw * downsample ≤ 2800000)
    (step : 1 ≤ maxSize)
    {left place : Nat}
    (turns : place + left = 20)
    (passed : ∀ earlier < place, binPath maxSize earlier < bw) :
    ∃ last,
      searchBins (bw * downsample : Nat) downsample maxSize left (place + 1) =
          Option.some (last + 1) ∧
        ThresholdSearch.StopsAt (binPath maxSize) 20 (bw : Int) last := by
  have bins :
      ∀ place, (∀ earlier < place, binPath maxSize earlier < bw) →
        mul? (2 ^ (place + 1)) downsample =
          Option.some ((2 ^ (place + 1) * downsample : Nat) : Int) := by
    intro place passed
    have small := bins_small some rate step passed
    have power : (2 : Int) ^ (place + 1) = (2 ^ (place + 1) : Nat) := by
      push_cast
      rfl
    rw [power]
    exact mul?_natCast (by omega)
  induction left generalizing place with
  | zero =>
      refine ⟨place, ?_, by omega, passed, .inl turns⟩
      rw [searchBins, bins place passed]
      rfl
  | succ left inductionHypothesis =>
      rw [searchBins, bins place passed, Option.bind_eq_bind, Option.bind_some]
      simp only [binSize_le_iff positive place]
      split
      · rename_i enough
        exact ⟨place, rfl, by omega, passed, .inr enough⟩
      · rename_i tooFew
        apply inductionHypothesis (by omega)
        intro earlier below
        rcases Nat.lt_succ_iff_lt_or_eq.mp below with before | rfl
        · exact passed earlier before
        · exact Int.not_le.mp tooFew

/-! ## The array -/

/-- The plan of hops side by side from `lower` on. -/
def planOf
    (lower : Int)
    (count bwSeen bwUsed binE downsample downsamplePasses : Nat) :
    Plan :=
  let bufLen : Int := (max 16384 (2 * 2 ^ binE * downsample) : Nat)
  { bwSeen := bwSeen
    bwUsed := bwUsed
    binE := binE
    downsample := downsample
    downsamplePasses := downsamplePasses
    bufLen := bufLen
    tunes :=
      (List.range count).map fun (i : Nat) =>
        { freq := lower + i * bwSeen + (bwSeen / 2 : Nat)
          rate := bwUsed
          binE := binE
          downsample := downsample
          downsamplePasses := downsamplePasses
          bufLen := bufLen } }

theorem mapM_eq_some_map
    {α β : Type}
    {f : α → Option β}
    {g : α → β}
    {list : List α}
    (each : ∀ element ∈ list, f element = some (g element)) :
    list.mapM f = some (list.map g) := by
  induction list with
  | nil =>
      rfl
  | cons head rest inductionHypothesis =>
      rw [List.forall_mem_cons] at each
      rw [List.mapM_cons, each.1, inductionHypothesis each.2]
      rfl

/-- The frequency of a hop that ends within the range of an `int`. -/
theorem hopFreq_eq
    {lower : Int}
    {bwSeen i : Nat}
    (nonneg : 0 ≤ lower)
    (fits : lower + ((i + 1) * bwSeen : Nat) < 2 ^ 31) :
    hopFreq lower bwSeen i = some (lower + i * bwSeen + (bwSeen / 2 : Nat)) := by
  rw [Nat.succ_mul] at fits
  have half : ((bwSeen : Int)).tdiv 2 = (bwSeen / 2 : Nat) := (Int.ofNat_tdiv bwSeen 2).symm
  have product : ((i * bwSeen : Nat) : Int) = i * bwSeen := Int.natCast_mul i bwSeen
  unfold hopFreq
  rw [mul?_natCast (by omega), Option.bind_eq_bind, Option.bind_some, add?,
    CheckedInt.int?_of_fits (by unfold CheckedInt.Fits; omega), Option.bind_some, add?,
    half, CheckedInt.int?_of_fits (by unfold CheckedInt.Fits; omega), product]

/-- The end of the function on hops that lie within the range. -/
theorem buildPlan_eq
    {lower : Int}
    {count bwSeen bwUsed binE downsample downsamplePasses : Nat}
    (nonneg : 0 ≤ lower)
    (fits : lower + (count * bwSeen : Nat) < 2 ^ 31)
    (few : count ≤ 3000)
    (small : 2 ^ binE * downsample ≤ 5600000)
    (positive : 0 < downsample) :
    buildPlan lower bwSeen bwUsed count downsample binE downsamplePasses =
      some
        (.planned
          (planOf lower count bwSeen bwUsed binE downsample downsamplePasses)) := by
  have binsSmall : 2 ^ binE ≤ 5600000 :=
    (Nat.le_mul_of_pos_right _ positive).trans small
  have power : (2 : Int) ^ binE = (2 ^ binE : Nat) := by
    push_cast
    rfl
  have two : (2 : Int) = (2 : Nat) := rfl
  have product : 2 * 2 ^ binE * downsample = 2 * (2 ^ binE * downsample) :=
    Nat.mul_assoc _ _ _
  have frequencies :
      ∀ i ∈ List.range count,
        hopFreq lower bwSeen i = some (lower + i * bwSeen + (bwSeen / 2 : Nat)) := by
    intro i member
    have inside : (i + 1) * bwSeen ≤ count * bwSeen :=
      Nat.mul_le_mul_right bwSeen (List.mem_range.mp member)
    exact hopFreq_eq nonneg (by omega)
  have length :
      (if ((2 * 2 ^ binE * downsample : Nat) : Int) < defaultBufLength then
          defaultBufLength
        else
          ((2 * 2 ^ binE * downsample : Nat) : Int)) =
        (max 16384 (2 * 2 ^ binE * downsample) : Nat) := by
    unfold defaultBufLength
    split <;> omega
  unfold buildPlan maxTunes
  rw [if_neg (by omega), power, two, mul?_natCast (by omega), Option.bind_eq_bind,
    Option.bind_some, mul?_natCast (by omega), Option.bind_some, length,
    Int.toNat_natCast]
  dsimp only
  rw [mapM_eq_some_map (g := fun (i : Nat) =>
    TuningState.mk (lower + i * bwSeen + (bwSeen / 2 : Nat)) bwUsed binE downsample
      downsamplePasses (max 16384 (2 * 2 ^ binE * downsample) : Nat))]
  · rfl
  · intro i member
    rw [frequencies i member]
    rfl

/-- The plan of a range that is not empty, for a step below `MINIMUM_RATE`. -/
theorem frequencyRange_eq
    (boxcar : Bool)
    {lower maxSize : Int}
    {width : Nat}
    (nonneg : 0 ≤ lower)
    (some : 0 < width)
    (fits : lower + width < 2 ^ 31)
    (step : 1 ≤ maxSize) :
    ∃ last,
      ThresholdSearch.StopsAt (binPath maxSize) 20 (hopWidth width : Int) last ∧
        frequencyRange boxcar lower (lower + width) maxSize =
          Option.some
            (.planned
              (if minimumRate ≤ maxSize then
                planOf lower (width / maxSize.toNat) maxSize.toNat maxSize.toNat 0
                  (downsampleFor boxcar (hopWidth width))
                  (passesFor boxcar (hopWidth width))
              else
                planOf lower (hopCount width) (hopWidth width)
                  (hopWidth width * downsampleFor boxcar (hopWidth width)) (last + 1)
                  (downsampleFor boxcar (hopWidth width))
                  (passesFor boxcar (hopWidth width)))) := by
  obtain ⟨inside, beyond⟩ := hopWidth_remainder width
  obtain ⟨atMost, single⟩ := hopWidth_bounds width
  have countFew : hopCount width < 1500 := by
    unfold hopCount
    omega
  have positive := hopWidth_pos some
  obtain ⟨samples, rate, _⟩ := downsampleFor_bounds boxcar positive atMost
  have range : sub? (lower + width) lower = Option.some (width : Int) := by
    rw [sub?, add_sub_cancel_left, CheckedInt.int?_of_fits]
    unfold CheckedInt.Fits
    omega
  obtain ⟨last, found, stops⟩ :=
    searchBins_stops samples positive rate step (show 0 + 20 = 20 from rfl) nofun
  refine ⟨last, stops, ?_⟩
  have rates :=
    @rates_eq boxcar (hopCount width) _ positive atMost (fun narrow => (single narrow).1)
  obtain ⟨raised, isRaised, isRates⟩ := Option.bind_eq_some_iff.mp rates
  unfold frequencyRange
  simp only [Option.bind_eq_bind]
  rw [range, Option.bind_some,
    searchHops_eq (by omega) (by decide) (Nat.succ_pos _) (by omega), Option.bind_some,
    isRaised, Option.bind_some, isRates, Option.bind_some]
  dsimp only
  rw [found, Option.bind_some]
  split
  · rename_i giant
    unfold minimumRate at giant
    obtain ⟨size, rfl⟩ := Int.eq_ofNat_of_zero_le (show 0 ≤ maxSize by omega)
    have whole := Nat.div_mul_le_self width size
    have hops : width / size ≤ width / 1000000 :=
      Nat.div_le_div_left (by omega) (by decide)
    have downsampleFits := Nat.le_mul_of_pos_left (downsampleFor boxcar (hopWidth width)) positive
    rw [Int.toNat_natCast, div?_natCast (by omega) (by omega), Option.bind_some,
      buildPlan_eq nonneg (by omega) (by omega) (by omega) samples]
  · have small := bins_small positive rate step stops.passed
    rw [buildPlan_eq nonneg (by omega) (by omega) small samples]

/-- The rate of an empty range is divided by. -/
theorem frequencyRange_empty
    (boxcar : Bool)
    (lower maxSize : Int) :
    frequencyRange boxcar lower lower maxSize = none := by
  have range : sub? lower lower = some 0 := by
    rw [sub?, Int.sub_self]
    rfl
  unfold frequencyRange
  simp only [Option.bind_eq_bind]
  rw [range, Option.bind_some]
  rfl

end LibRtlSdr.RtlPower
