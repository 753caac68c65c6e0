import LibRtlSdr.R82xxShadow
import LibRtlSdr.R82xxSuccess
import LibRtlSdr.ThresholdSearch
import Mathlib.Data.List.GetD
import Mathlib.Order.Bounds.Basic
import Mathlib.Order.Interval.Set.Basic

namespace LibRtlSdr.R82xx

open DriverProgram MaskedWrites OverlayWrites ThresholdSearch

/-!
# The bandwidth of the R82xx

Up to 2.43 MHz `r82xx_set_bandwidth` takes the parts of two high-pass filters
off the bandwidth as long as it is too wide, and searches the low-pass table for
what remains.  The widths that it can realise ascend in 19 steps, and each
request gets the first that is wide enough.
-/

/-- What of a bandwidth remains for the low-pass filter. -/
def remainingBw (bw : Int) : Int :=
  let bw := if bw > 1700000 + 350000 then bw - 380000 else bw
  if bw > 1700000 then bw - 350000 else bw

/-- Where the search of the low-pass table ends, one past the entry in use. -/
def searchEnd (bw : Int) : Nat :=
  ifLowPassBwTable.findIdx fun width => decide (width < bw)

/-- The high-pass parts that a value of register 0x0b enables. -/
def highPassWidth (reg0b : Byte) : Int :=
  (if reg0b &&& 0x20 = 0 then 380000 else 0) +
    if reg0b &&& 0x40 = 0 then 350000 else 0

/-- The width that a value of register 0x0b selects. -/
def filterWidth (reg0b : Byte) : Int :=
  ifLowPassBwTable.getD (15 - (reg0b &&& 0x0f).toNat) 0 + highPassWidth reg0b

/-- The width that the chip realises. -/
def realisedWidth (chip : Nat → Byte) : Int :=
  filterWidth (chip 0x0b)

section LowPass

/-- The entries of the low-pass table, from the narrowest on. -/
def lowPassAt (place : Nat) : Int :=
  ifLowPassBwTable.getD (9 - place) 0

theorem lowPassAt_ascends : AscendsTo lowPassAt 9 := by
  decide

/-- The search ends behind the entry that is wide enough, and not at the start. -/
theorem searchEnd_stopsAt
    {bw : Int}
    (inTable : bw ≤ 1700000) :
    0 < searchEnd bw ∧ searchEnd bw ≤ 10 ∧
      StopsAt lowPassAt 9 bw (10 - searchEnd bw) := by
  have length : ifLowPassBwTable.length = 10 :=
    rfl
  have inside : searchEnd bw ≤ 10 :=
    length ▸ List.findIdx_le_length
  have wide :
      ∀ index < searchEnd bw, bw ≤ ifLowPassBwTable.getD index 0 := by
    intro index before
    have entry := List.not_of_lt_findIdx before
    rw [List.getD_eq_getElem _ _ (by omega)]
    simpa using entry
  have narrow :
      ∀ index, searchEnd bw = index → index < 10 →
        ifLowPassBwTable.getD index 0 < bw := by
    rintro _ rfl within
    have entry :=
      @List.findIdx_getElem _ (fun width => decide (width < bw))
        ifLowPassBwTable within
    rw [List.getD_eq_getElem _ _ (by omega)]
    exact of_decide_eq_true entry
  have positive : 0 < searchEnd bw := by
    apply Nat.pos_of_ne_zero
    intro atStart
    exact absurd inTable (not_le.mpr (narrow 0 atStart (by decide)))
  refine ⟨positive, inside, by omega, ?_, .inr ?_⟩
  · intro earlier before
    have first := narrow (searchEnd bw) rfl (by omega)
    have place : 9 - (9 - searchEnd bw) = searchEnd bw := by
      omega
    have later : lowPassAt earlier ≤ lowPassAt (9 - searchEnd bw) :=
      lowPassAt_ascends.le (by omega) (by omega)
    rw [lowPassAt, lowPassAt, place] at later
    exact later.trans_lt first
  · have place : 9 - (10 - searchEnd bw) = searchEnd bw - 1 := by
      omega
    rw [lowPassAt, place]
    exact wide _ (by omega)

end LowPass

section Widths

/-- The widths that can be realised, from the narrowest on. -/
def widths : List Int :=
  [350000, 450000, 550000, 700000, 900000, 1200000, 1450000, 1550000,
    1600000, 1700000, 1800000, 1900000, 1950000, 2050000, 2080000, 2180000,
    2280000, 2330000, 2430000]

/-- The width at a place. -/
def widthAt (place : Nat) : Int :=
  widths.getD place 0

theorem widthAt_ascends : AscendsTo widthAt 18 := by
  decide

/-- The high-pass parts that a bandwidth enables. -/
def enabledParts (bw : Int) : Int :=
  (if bw > 2050000 then 380000 else 0) +
    if (if bw > 2050000 then bw - 380000 else bw) > 1700000 then 350000 else 0

/-- The width for a bandwidth of at most 2.43 MHz. -/
def widthFor (bw : Int) : Int :=
  enabledParts bw + ifLowPassBwTable.getD (lowPassIndex (remainingBw bw)) 0

/-- What remains for the low-pass filter is in its table. -/
theorem remainingBw_le
    {bw : Int}
    (narrow : bw ≤ 2430000) :
    remainingBw bw ≤ 1700000 := by
  unfold remainingBw
  dsimp only
  split <;> split <;> omega

/--
With enabled parts only the wide low-pass entries are in use, and the search of
the table is a search of the widths.
-/
theorem stopsAt_shifted
    {bw added : Int}
    {place offset narrower : Nat}
    (stops : StopsAt lowPassAt 9 bw place)
    (inTable : bw ≤ 1700000)
    (inRange : 9 + offset ≤ 18)
    (within : narrower ≤ 9)
    (beyond : lowPassAt narrower < bw)
    (beyondAll : widthAt (narrower + offset) < bw + added)
    (entries :
      ∀ place < 10, narrower < place →
        widthAt (place + offset) = lowPassAt place + added) :
    StopsAt widthAt 18 (bw + added) (place + offset) ∧
      widthAt (place + offset) = lowPassAt place + added := by
  have inside := stops.inside
  have reaches : bw ≤ lowPassAt place := by
    rcases stops.reached with atLast | reaches
    · rw [atLast]
      exact inTable
    · exact reaches
  have wide : narrower < place := by
    by_contra early
    have small : lowPassAt place ≤ lowPassAt narrower :=
      lowPassAt_ascends.le (Nat.le_of_not_lt early) within
    exact absurd (reaches.trans small) (not_le.mpr beyond)
  have entry : widthAt (place + offset) = lowPassAt place + added :=
    entries place (Nat.lt_succ_of_le inside) wide
  refine ⟨⟨by omega, ?_, .inr ?_⟩, entry⟩
  · intro earlier before
    by_cases low : earlier ≤ narrower + offset
    · exact (widthAt_ascends.le low (by omega)).trans_lt beyondAll
    · have shift : earlier = (earlier - offset) + offset := by
        omega
      have passed := stops.passed (earlier - offset) (by omega)
      rw [shift, entries (earlier - offset) (by omega) (by omega)]
      omega
  · rw [entry]
    omega

/-- The entry of a place is the low-pass entry of the search and the enabled parts. -/
theorem widthAt_entries :
    (∀ place < 10, widthAt place = lowPassAt place) ∧
      (∀ place < 10, 5 < place →
        widthAt (place + 4) = lowPassAt place + 350000) ∧
      (∀ place < 10, 8 < place →
        widthAt (place + 5) = lowPassAt place + 380000) ∧
      ∀ place < 10, 5 < place →
        widthAt (place + 9) = lowPassAt place + 730000 := by
  decide

/-- Without enabled parts the widths are those of the table. -/
theorem stopsAt_plain
    {bw : Int}
    {place : Nat}
    (stops : StopsAt lowPassAt 9 bw place)
    (inTable : bw ≤ 1700000) :
    StopsAt widthAt 18 bw place ∧ widthAt place = lowPassAt place := by
  have inside := stops.inside
  have entries := widthAt_entries.1
  have entry := entries place (Nat.lt_succ_of_le inside)
  refine ⟨⟨by omega, ?_, .inr ?_⟩, entry⟩
  · intro earlier before
    rw [entries earlier (by omega)]
    exact stops.passed earlier before
  · rw [entry]
    rcases stops.reached with atLast | reaches
    · rw [atLast]
      exact inTable
    · exact reaches

/-- Each request gets the first width that is wide enough. -/
theorem widthFor_stopsAt
    {bw : Int}
    (narrow : bw ≤ 2430000) :
    ∃ place, StopsAt widthAt 18 bw place ∧ widthFor bw = widthAt place := by
  have inTable := remainingBw_le narrow
  rcases searchEnd_stopsAt inTable with ⟨positive, inside, stops⟩
  rcases widthAt_entries with ⟨_, first, second, both⟩
  have entry :
      ifLowPassBwTable.getD (lowPassIndex (remainingBw bw)) 0 =
        lowPassAt (10 - searchEnd (remainingBw bw)) := by
    have index :
        lowPassIndex (remainingBw bw) =
          9 - (10 - searchEnd (remainingBw bw)) := by
      change searchEnd (remainingBw bw) - 1 = _
      omega
    rw [index]
    rfl
  unfold widthFor
  rw [entry]
  generalize 10 - searchEnd (remainingBw bw) = place at stops
  have parts : remainingBw bw + enabledParts bw = bw := by
    unfold remainingBw enabledParts
    dsimp only
    split <;> split <;> omega
  have shifted :
      ∀ {added : Int} {offset narrower : Nat},
        enabledParts bw = added →
          9 + offset ≤ 18 →
          narrower ≤ 9 →
          lowPassAt narrower < remainingBw bw →
          widthAt (narrower + offset) < bw →
          (∀ place < 10, narrower < place →
            widthAt (place + offset) = lowPassAt place + added) →
          ∃ found,
            StopsAt widthAt 18 bw found ∧
              enabledParts bw + lowPassAt place = widthAt found := by
    intro added offset narrower enabled inRange within beyond beyondAll entries
    rw [← parts, enabled] at beyondAll
    rcases stopsAt_shifted stops inTable inRange within beyond beyondAll
      entries with ⟨stopsAll, value⟩
    rw [← enabled, parts] at stopsAll
    exact ⟨place + offset, stopsAll, by rw [value, enabled, Int.add_comm]⟩
  -- The cases are the combinations of enabled parts.
  by_cases wider : bw > 2080000
  · have enabled : enabledParts bw = 730000 := by
      unfold enabledParts
      have wide : bw > 2050000 := by
        omega
      rw [if_pos wide, if_pos wide, if_pos (by omega)]
      rfl
    have beyond : lowPassAt 5 < remainingBw bw := by
      change (1200000 : Int) < _
      omega
    have beyondAll : widthAt (5 + 9) < bw :=
      wider
    exact shifted enabled (by decide) (by decide) beyond beyondAll both
  by_cases wide : bw > 2050000
  · have enabled : enabledParts bw = 380000 := by
      unfold enabledParts
      rw [if_pos wide, if_pos wide, if_neg (by omega)]
      rfl
    have beyond : lowPassAt 8 < remainingBw bw := by
      change (1600000 : Int) < _
      omega
    have beyondAll : widthAt (8 + 5) < bw :=
      wide
    exact shifted enabled (by decide) (by decide) beyond beyondAll second
  by_cases half : bw > 1700000
  · have enabled : enabledParts bw = 350000 := by
      unfold enabledParts
      rw [if_neg wide, if_neg wide, if_pos half]
      rfl
    have beyond : lowPassAt 5 < remainingBw bw := by
      change (1200000 : Int) < _
      omega
    have beyondAll : widthAt (5 + 4) < bw :=
      half
    exact shifted enabled (by decide) (by decide) beyond beyondAll first
  · have enabled : enabledParts bw = 0 := by
      unfold enabledParts
      rw [if_neg wide, if_neg wide, if_neg half]
      rfl
    rw [enabled, Int.add_zero] at parts
    rw [parts] at stops inTable
    rcases stopsAt_plain stops inTable with ⟨stopsAll, value⟩
    exact ⟨place, stopsAll, by rw [enabled, Int.zero_add, value]⟩

/-- The width for a bandwidth is the least of the widths that are wide enough. -/
theorem widthFor_le
    {bw : Int}
    (narrow : bw ≤ 2430000)
    {other : Int}
    (narrowToo : other ≤ 2430000)
    (wideEnough : bw ≤ widthFor other) :
    widthFor bw ≤ widthFor other := by
  rcases widthFor_stopsAt narrow with ⟨place, stops, width⟩
  rcases widthFor_stopsAt narrowToo with ⟨otherPlace, stopsOther, otherWidth⟩
  rw [otherWidth] at wideEnough
  rw [width, otherWidth]
  exact widthAt_ascends.le (stops.le_of_reached wideEnough) stopsOther.inside

/-- A bandwidth of at most 2.43 MHz gets a width that is wide enough. -/
theorem le_widthFor
    {bw : Int}
    (narrow : bw ≤ 2430000) :
    bw ≤ widthFor bw := by
  rcases widthFor_stopsAt narrow with ⟨place, stops, width⟩
  rw [width]
  rcases stops.reached with atLast | reaches
  · rw [atLast]
    exact narrow
  · exact reaches

/-- Every width is a whole number of 10 kHz, and none is more than 2.43 MHz. -/
theorem widthFor_even
    {bw : Int}
    (narrow : bw ≤ 2430000) :
    0 ≤ widthFor bw ∧ widthFor bw ≤ 2430000 ∧ widthFor bw % 2 = 0 := by
  have each :
      ∀ place < 19,
        0 ≤ widthAt place ∧ widthAt place ≤ 2430000 ∧ widthAt place % 2 = 0 := by
    decide
  rcases widthFor_stopsAt narrow with ⟨place, stops, width⟩
  rw [width]
  exact each place (Nat.lt_succ_of_le stops.inside)

end Widths

section Register

/-- The masked bits of register 0x0b determine the width. -/
theorem register_and (reg0b mask : Byte) (inside : 0xef &&& mask = mask) :
    (reg0b &&& 0xef) &&& mask = reg0b &&& mask := by
  rw [BitVec.and_assoc, inside]

theorem highPassWidth_and (reg0b : Byte) :
    highPassWidth (reg0b &&& 0xef) = highPassWidth reg0b := by
  unfold highPassWidth
  rw [register_and _ 0x20 (by decide), register_and _ 0x40 (by decide)]

theorem filterWidth_and (reg0b : Byte) :
    filterWidth (reg0b &&& 0xef) = filterWidth reg0b := by
  unfold filterWidth
  rw [highPassWidth_and, register_and _ 0x0f (by decide)]

/-- The value of register 0x0b for enabled high-pass parts and a low-pass entry. -/
def filterByte (second first : Bool) (index : Nat) : Byte :=
  0x80 ||| (if second then 0x00 else 0x20) |||
    (if first then 0x00 else 0x40) ||| (15 - BitVec.ofNat 8 index)

/-- It selects these. -/
theorem filterByte_selects :
    ∀ second first : Bool, ∀ index < 10,
      15 - (filterByte second first index &&& 0x0f).toNat = index ∧
        highPassWidth (filterByte second first index) =
          (if second then 380000 else 0) + if first then 350000 else 0 := by
  decide

/-- The setting for a bandwidth of at most 2.43 MHz. -/
theorem bandwidthSetting_narrow
    {bw : Int}
    (narrow : bw ≤ 2430000) :
    bandwidthSetting bw =
      ⟨0x00,
        filterByte (bw > 2050000)
          ((if bw > 2050000 then bw - 380000 else bw) > 1700000)
          (lowPassIndex (remainingBw bw)),
        UInt32.ofInt
          (2300000 + enabledParts bw - (widthFor bw).tdiv 2)⟩ := by
  unfold bandwidthSetting
  rw [if_neg (by omega), if_neg (by omega), if_neg (by omega)]
  unfold filterByte
  simp only [decide_eq_true_eq]
  rfl

end Register

section Programming

variable {before after : Priv} {bw : Int} {intFreq : UInt32}

/-- The setting for a bandwidth is what the chip holds and the function returns. -/
theorem setBandwidth_programs
    (yields : Yields (setBandwidth bw).run before (.ok intFreq) after) :
    intFreq = (bandwidthSetting bw).intFreq ∧
      after.bus.chip 0x0b &&& 0xef = (bandwidthSetting bw).reg0b &&& 0xef := by
  unfold setBandwidth at yields
  rw [yields_run_bind_ok (yields_run_modify.mpr ⟨rfl, rfl⟩)] at yields
  rcases parts_of_yields_ok yields with ⟨_, middle, wrote, yields⟩
  rw [yields_run_bind_ok (yields_run_get.mpr ⟨rfl, rfl⟩)] at yields
  rcases yields_run_pure.mp yields with ⟨returned, rfl⟩
  have same := writeMasks_ok wrote
  subst same
  refine ⟨(Except.ok.inj returned).symm, ?_⟩
  rw [masked_chip _ (by simp [Shadowed]) (by simp)]
  exact merge_and_mask _ _ _

/-- What the chip realises after a request, and the intermediate frequency for it. -/
theorem setBandwidth_realises
    (narrow : bw ≤ 2430000)
    (yields : Yields (setBandwidth bw).run before (.ok intFreq) after) :
    15 - (after.bus.chip 0x0b &&& 0x0f).toNat =
        lowPassIndex (remainingBw bw) ∧
      highPassWidth (after.bus.chip 0x0b) = enabledParts bw ∧
      realisedWidth after.bus.chip = widthFor bw ∧
      (intFreq.toNat : Int) =
        2300000 + enabledParts bw - widthFor bw / 2 := by
  rcases setBandwidth_programs yields with ⟨returned, masked⟩
  rcases searchEnd_stopsAt (remainingBw_le narrow) with ⟨_, inside, _⟩
  have index : lowPassIndex (remainingBw bw) < 10 := by
    change searchEnd (remainingBw bw) - 1 < 10
    omega
  rw [bandwidthSetting_narrow narrow] at returned masked
  rcases filterByte_selects (bw > 2050000)
    ((if bw > 2050000 then bw - 380000 else bw) > 1700000) _ index with
    ⟨entry, parts⟩
  simp only [decide_eq_true_eq] at parts
  have sameIndex := congrArg (fun reg0b : Byte => (reg0b &&& 0x0f).toNat) masked
  have sameParts := congrArg highPassWidth masked
  have sameWidth := congrArg filterWidth masked
  simp only [register_and _ 0x0f (by decide)] at sameIndex
  rw [highPassWidth_and, highPassWidth_and, parts] at sameParts
  rw [filterWidth_and, filterWidth_and] at sameWidth
  refine ⟨by rw [sameIndex, entry], sameParts, ?_, ?_⟩
  · unfold realisedWidth
    rw [sameWidth, filterWidth, entry, parts]
    exact Int.add_comm _ _
  · rcases widthFor_even narrow with ⟨nonneg, bounded, _⟩
    have partsBound : 0 ≤ enabledParts bw ∧ enabledParts bw ≤ 730000 := by
      unfold enabledParts
      split <;> split <;> omega
    rw [returned, Int.tdiv_eq_ediv_of_nonneg nonneg]
    simp only [UInt32.ofInt, UInt32.toNat_ofNat']
    omega

/-- The widths that `r82xx_set_bandwidth` realises for requests up to 2.43 MHz. -/
def realisableWidths : Set Int :=
  {width |
    ∃ request before intFreq after,
      0 ≤ request ∧ request ≤ 2430000 ∧
        Yields (setBandwidth request).run before (.ok intFreq) after ∧
        realisedWidth after.bus.chip = width}

/--
The search of the low-pass table ends inside it.  A request of at most 2.43 MHz
gets the least width that is wide enough, larger requests get no smaller width,
and the upper edge of the passband is at 2.3 MHz and the enabled high-pass parts.
-/
theorem setBandwidth_least_width
    (request : 0 ≤ bw)
    (yields : Yields (setBandwidth bw).run before (.ok intFreq) after) :
    bw ≤ 2430000 →
      (0 < searchEnd (remainingBw bw) ∧
        lowPassIndex (remainingBw bw) = searchEnd (remainingBw bw) - 1 ∧
        lowPassIndex (remainingBw bw) ≤ 9 ∧
        15 - (after.bus.chip 0x0b &&& 0x0f).toNat =
          lowPassIndex (remainingBw bw)) ∧
      IsLeast {width | width ∈ realisableWidths ∧ bw ≤ width}
        (realisedWidth after.bus.chip) ∧
      (∀ larger beforeLarger intFreqLarger afterLarger,
        bw ≤ larger → larger ≤ 2430000 →
          Yields (setBandwidth larger).run beforeLarger (.ok intFreqLarger)
            afterLarger →
          realisedWidth after.bus.chip ≤
            realisedWidth afterLarger.bus.chip) ∧
      (intFreq.toNat : Int) =
        2300000 + highPassWidth (after.bus.chip 0x0b) -
          realisedWidth after.bus.chip / 2 ∧
      2 * (intFreq.toNat : Int) + realisedWidth after.bus.chip =
        2 * (2300000 + highPassWidth (after.bus.chip 0x0b)) := by
  intro narrow
  rcases setBandwidth_realises narrow yields with
    ⟨entry, parts, width, frequency⟩
  rcases searchEnd_stopsAt (remainingBw_le narrow) with ⟨positive, inside, _⟩
  have even := (widthFor_even narrow).2.2
  have index :
      lowPassIndex (remainingBw bw) = searchEnd (remainingBw bw) - 1 :=
    rfl
  rw [width, parts]
  refine ⟨⟨positive, index, by omega, entry⟩, ⟨⟨?_, ?_⟩, ?_⟩, ?_,
    frequency, by omega⟩
  · exact ⟨bw, before, intFreq, after, request, narrow, yields, width⟩
  · exact le_widthFor narrow
  · rintro _ ⟨⟨other, _, _, _, _, narrowToo, yieldsToo, rfl⟩, wideEnough⟩
    have otherWidth := (setBandwidth_realises narrowToo yieldsToo).2.2.1
    rw [otherWidth] at wideEnough ⊢
    exact widthFor_le narrow narrowToo wideEnough
  · intro larger _ _ _ ordered narrowToo yieldsToo
    rw [(setBandwidth_realises narrowToo yieldsToo).2.2.1]
    exact widthFor_le narrow narrowToo
      (ordered.trans (le_widthFor narrowToo))

/-- When every transfer succeeds, a bandwidth is set. -/
theorem setBandwidth_done_returns
    (done : before.AllDone)
    (bw : Int) :
    Returns (setBandwidth bw).run before
      (.ok (bandwidthSetting bw).intFreq) Priv.AllDone := by
  have chosenDone :
      ({ before with intFreq := (bandwidthSetting bw).intFreq } :
        Priv).AllDone :=
    ⟨done.writes, done.reads⟩
  exact ⟨_, by
    unfold setBandwidth
    rw [yields_run_bind_ok (yields_run_modify.mpr ⟨rfl, rfl⟩),
      yields_run_bind_ok
        ((yields_writeMasks chosenDone (by simp [Shadowed])).mpr ⟨rfl, rfl⟩),
      yields_run_bind_ok (yields_run_get.mpr ⟨rfl, rfl⟩)]
    exact yields_run_pure.mpr ⟨rfl, rfl⟩, chosenDone.masked _⟩

/-- 1 MHz is realised as 1.2 MHz. -/
theorem setBandwidth_least_width_poweredTuner :
    ∃ intFreq after,
      Yields (setBandwidth 1000000).run poweredTuner (.ok intFreq) after ∧
        IsLeast {width | width ∈ realisableWidths ∧ 1000000 ≤ width}
          (realisedWidth after.bus.chip) := by
  have done : poweredTuner.AllDone := ⟨fun _ => rfl, fun _ => rfl⟩
  rcases setBandwidth_done_returns done 1000000 with ⟨after, yields, _⟩
  exact ⟨_, after, yields,
    (setBandwidth_least_width (by decide) yields (by decide)).2.1⟩

end Programming

end LibRtlSdr.R82xx
