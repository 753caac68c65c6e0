import LibRtlSdr.R82xxShadow
import LibRtlSdr.R82xxSuccess
import LibRtlSdr.ThresholdSearch
import Mathlib.Algebra.Order.Ring.Int
import Mathlib.Order.Bounds.Basic
import Mathlib.Order.Interval.Set.Basic

namespace LibRtlSdr.R82xx

open DriverProgram MaskedWrites OverlayWrites ThresholdSearch

/-!
# The manual gain of the R82xx

`r82xx_set_gain` adds LNA and mixer steps in turn until their sum reaches the
gain that is asked for.  The sums ascend to 49.6 dB, and the last mixer step
then takes away 0.8 dB again.
-/

/-- The sum of the steps up to an index. -/
def stepSum (steps : List Int) (index : Nat) : Int :=
  (steps.take (index + 1)).sum

/-- The gain of an LNA and a mixer index. -/
def indexGain (indices : Nat × Nat) : Int :=
  stepSum lnaGainSteps indices.1 + stepSum mixerGainSteps indices.2

/-- The LNA and the mixer index that the registers of the chip hold. -/
def programmedIndices (chip : Nat → Byte) : Nat × Nat :=
  ((chip 0x05 &&& 0x0f).toNat, (chip 0x07 &&& 0x0f).toNat)

/-- The gain that the registers of the chip hold. -/
def programmedGain (chip : Nat → Byte) : Int :=
  indexGain (programmedIndices chip)

/-- The gain that the loop ends with. -/
def manualGain (gain : Int) : Int :=
  indexGain (gainLoop gain 15 0 0 0)

section Loop

/-- The indices after so many steps, of which the first is one of the LNA. -/
def indicesAt (place : Nat) : Nat × Nat :=
  ((place + 1) / 2, place / 2)

/-- The gain after so many steps. -/
def gainAt (place : Nat) : Int :=
  indexGain (indicesAt place)

/-- Each step but the last raises the gain. -/
theorem gainAt_ascends : AscendsTo gainAt 29 := by
  decide

/-- The gain before the last step is the largest. -/
theorem gainAt_le_top
    {place : Nat}
    (inside : place ≤ 30) :
    gainAt place ≤ 496 := by
  rcases Nat.lt_or_eq_of_le inside with early | rfl
  · exact gainAt_ascends.le (Nat.le_of_lt_succ early) (Nat.le_refl 29)
  · decide

/-- One round of the loop adds an LNA step and a mixer step. -/
theorem gainAt_step :
    ∀ round < 15,
      gainAt (2 * round + 1) =
          gainAt (2 * round) + lnaGainSteps.getD (round + 1) 0 ∧
        gainAt (2 * round + 2) =
          gainAt (2 * round + 1) + mixerGainSteps.getD (round + 1) 0 := by
  decide

/--
The loop goes through the gains in turn.  The invariant is that the rounds done
and those left are 15, and that no gain so far has reached the request.
-/
theorem gainLoop_stopsAt
    {gain : Int}
    {rounds round : Nat}
    (all : rounds + round = 15)
    (passed : ∀ earlier < 2 * round, gainAt earlier < gain) :
    ∃ place,
      StopsAt gainAt 30 gain place ∧
        gainLoop gain rounds (gainAt (2 * round)) round round =
          indicesAt place := by
  induction rounds generalizing round with
  | zero =>
      refine ⟨2 * round, ⟨by omega, passed, .inl (by omega)⟩, ?_⟩
      exact Prod.ext (by simp only [gainLoop, indicesAt]; omega)
        (by simp only [gainLoop, indicesAt]; omega)
  | succ rounds inductionHypothesis =>
      rcases gainAt_step round (by omega) with ⟨lnaStep, mixerStep⟩
      unfold gainLoop
      dsimp only
      rw [← lnaStep]
      by_cases enough : gain ≤ gainAt (2 * round)
      · rw [if_pos enough]
        refine ⟨2 * round, ⟨by omega, passed, .inr enough⟩, ?_⟩
        exact Prod.ext (by simp only [indicesAt]; omega)
          (by simp only [indicesAt]; omega)
      · have passedFirst :
            ∀ earlier < 2 * round + 1, gainAt earlier < gain := by
          intro earlier before
          rcases Nat.lt_succ_iff_lt_or_eq.mp before with sooner | rfl
          · exact passed earlier sooner
          · exact Int.lt_of_not_ge enough
        rw [if_neg enough]
        by_cases enoughLna : gain ≤ gainAt (2 * round + 1)
        · rw [if_pos enoughLna]
          refine ⟨2 * round + 1,
            ⟨by omega, passedFirst, .inr enoughLna⟩, ?_⟩
          exact Prod.ext (by simp only [indicesAt]; omega)
            (by simp only [indicesAt]; omega)
        · rw [if_neg enoughLna, ← mixerStep]
          have passedBoth :
              ∀ earlier < 2 * (round + 1), gainAt earlier < gain := by
            intro earlier before
            rcases Nat.lt_succ_iff_lt_or_eq.mp before with sooner | rfl
            · exact passedFirst earlier sooner
            · exact Int.lt_of_not_ge enoughLna
          exact inductionHypothesis (by omega) passedBoth

/-- The loop stops at the first gain that reaches the request. -/
theorem exists_stopsAt
    (gain : Int) :
    ∃ place,
      StopsAt gainAt 30 gain place ∧
        gainLoop gain 15 0 0 0 = indicesAt place := by
  have nonePassed : ∀ earlier < 2 * 0, gainAt earlier < gain :=
    fun _ before => absurd before (Nat.not_lt_zero _)
  exact gainLoop_stopsAt (Nat.add_zero 15) nonePassed

/-- Where the search for a gain stops is the gain that the loop ends with. -/
theorem manualGain_of_stopsAt
    {gain : Int}
    {place : Nat}
    (stops : StopsAt gainAt 30 gain place) :
    manualGain gain = gainAt place := by
  rcases exists_stopsAt gain with ⟨found, stopsToo, indices⟩
  unfold manualGain
  rw [indices, stops.unique stopsToo]
  rfl

/-- A gain on the way up is reached exactly. -/
theorem manualGain_gainAt
    {place : Nat}
    (inside : place ≤ 29) :
    manualGain (gainAt place) = gainAt place := by
  have ascends : AscendsTo gainAt place :=
    fun earlier before => gainAt_ascends earlier (Nat.lt_of_lt_of_le before inside)
  rcases exists_stopsAt (gainAt place) with ⟨found, stops, _⟩
  rw [manualGain_of_stopsAt stops,
    stops.place_of_value (Nat.le_succ_of_le inside) ascends]

/-- Neither index leaves its table. -/
theorem gainLoop_le
    (gain : Int) :
    (gainLoop gain 15 0 0 0).1 ≤ 15 ∧ (gainLoop gain 15 0 0 0).2 ≤ 15 := by
  rcases exists_stopsAt gain with ⟨place, stops, indices⟩
  have inside := stops.inside
  rw [indices]
  unfold indicesAt
  omega

/-- Up to 49.6 dB the gain reaches the request. -/
theorem le_manualGain
    {gain : Int}
    (inRange : gain ≤ 496) :
    gain ≤ manualGain gain := by
  rcases exists_stopsAt gain with ⟨place, stops, _⟩
  rw [manualGain_of_stopsAt stops]
  exact (stops.reaches_of_exists (by decide : 29 < 30) inRange).2

/-- Beyond it the loop takes the last step. -/
theorem manualGain_beyond
    {gain : Int}
    (beyond : 496 < gain) :
    manualGain gain = 488 := by
  rcases exists_stopsAt gain with ⟨place, stops, _⟩
  have atLast : place = 30 :=
    stops.last_of_forall fun earlier before =>
      (gainAt_le_top (Nat.le_of_lt before)).trans_lt beyond
  rw [manualGain_of_stopsAt stops, atLast]
  rfl

/-- Up to 49.6 dB a larger request never has a smaller gain. -/
theorem manualGain_mono
    {smaller larger : Int}
    (ordered : smaller ≤ larger)
    (inRange : larger ≤ 496) :
    manualGain smaller ≤ manualGain larger := by
  rcases exists_stopsAt smaller with ⟨first, stopsFirst, _⟩
  rcases exists_stopsAt larger with ⟨second, stopsSecond, _⟩
  have within : second < 30 :=
    (stopsSecond.reaches_of_exists (by decide : 29 < 30) inRange).1
  rw [manualGain_of_stopsAt stopsFirst, manualGain_of_stopsAt stopsSecond]
  exact gainAt_ascends.le (stopsFirst.mono stopsSecond ordered)
    (Nat.le_of_lt_succ within)

/-- The largest gain is 49.6 dB. -/
theorem isGreatest_manualGain :
    IsGreatest (Set.range manualGain) 496 := by
  constructor
  · exact ⟨496, by decide⟩
  · rintro _ ⟨gain, rfl⟩
    rcases exists_stopsAt gain with ⟨place, stops, _⟩
    rw [manualGain_of_stopsAt stops]
    exact gainAt_le_top stops.inside

end Loop

section Programming

variable {before after : Priv}

/-- A small number in a nibble of a register. -/
theorem nibble_toNat
    {old : Byte}
    {index : Nat}
    (small : index ≤ 15) :
    (merge old (BitVec.ofNat 8 index) 0x0f &&& 0x0f).toNat = index := by
  have mask : (0x0f : Byte).toNat = 2 ^ 4 - 1 :=
    rfl
  rw [merge_and_mask, BitVec.toNat_and, mask, Nat.and_two_pow_sub_one_eq_mod,
    BitVec.toNat_ofNat]
  omega

/-- A manual gain is programmed by the indices that the loop ends with. -/
theorem setGain_programs
    {gain : Int}
    (yields : Yields (setGain true gain).run before (.ok ()) after) :
    programmedIndices after.bus.chip = gainLoop gain 15 0 0 0 := by
  rcases gainLoop_le gain with ⟨lnaSmall, mixSmall⟩
  unfold setGain at yields
  rw [if_pos rfl] at yields
  rcases parts_of_yields_ok yields with ⟨_, _, _, yields⟩
  rcases parts_of_yields_ok yields with ⟨_, middle, _, yields⟩
  rw [writeMasks_ok yields]
  apply Prod.ext
  · change (_ &&& (0x0f : Byte)).toNat = _
    rw [masked_chip middle (by simp [Shadowed]) (by simp)]
    exact nibble_toNat lnaSmall
  · change (_ &&& (0x0f : Byte)).toNat = _
    rw [masked_chip middle (by simp [Shadowed]) (by simp)]
    exact nibble_toNat mixSmall

/-- When every transfer succeeds, a manual gain is set. -/
theorem setGain_manual_returns
    (done : before.AllDone)
    (gain : Int) :
    Returns (setGain true gain).run before (.ok ()) Priv.AllDone := by
  unfold setGain
  rw [if_pos rfl]
  apply Returns.runBind (done.writeMasks (by simp [Shadowed]))
  intro middle done
  apply Returns.runBind (done.read 0x00)
  intro middle done
  exact done.writeMasks (by simp [Shadowed])

/-- The gains that `r82xx_set_gain` can program. -/
def programmableGains : Set Int :=
  {programmed |
    ∃ gain before after,
      Yields (setGain true gain).run before (.ok ()) after ∧
        programmedGain after.bus.chip = programmed}

theorem programmableGains_eq : programmableGains = Set.range manualGain := by
  apply Set.eq_of_subset_of_subset
  · rintro _ ⟨gain, before, after, yields, rfl⟩
    refine ⟨gain, ?_⟩
    unfold programmedGain
    rw [setGain_programs yields]
    rfl
  · rintro _ ⟨gain, rfl⟩
    have done : poweredTuner.AllDone := ⟨fun _ => rfl, fun _ => rfl⟩
    rcases setGain_manual_returns done gain with ⟨after, yields, _⟩
    refine ⟨gain, poweredTuner, after, yields, ?_⟩
    unfold programmedGain
    rw [setGain_programs yields]
    rfl

/--
Of two requests the larger one gets at least the gain of the smaller one, and
both get what they ask for as far as the tuner goes, exactly if neither is above
49.6 dB.
-/
theorem setGain_monotone_iff
    {smaller larger : Int}
    (ordered : smaller ≤ larger)
    {before after beforeLarger afterLarger : Priv}
    (yields : Yields (setGain true smaller).run before (.ok ()) after)
    (yieldsLarger :
      Yields (setGain true larger).run beforeLarger (.ok ()) afterLarger) :
    (programmedGain after.bus.chip ≤ programmedGain afterLarger.bus.chip ∧
      (∃ top,
        IsGreatest programmableGains top ∧
          min smaller top ≤ programmedGain after.bus.chip ∧
          min larger top ≤ programmedGain afterLarger.bus.chip) ∧
      ∀ gain,
        (gainLoop gain 15 0 0 0).1 ≤ 15 ∧
          (gainLoop gain 15 0 0 0).2 ≤ 15) ↔
      larger ≤ 496 := by
  have gain : programmedGain after.bus.chip = manualGain smaller :=
    congrArg indexGain (setGain_programs yields)
  have gainLarger : programmedGain afterLarger.bus.chip = manualGain larger :=
    congrArg indexGain (setGain_programs yieldsLarger)
  rw [gain, gainLarger, programmableGains_eq]
  constructor
  · rintro ⟨_, ⟨top, greatest, _, reaches⟩, _⟩
    have isTop : top = 496 := greatest.unique isGreatest_manualGain
    by_contra beyond
    have above := Int.lt_of_not_ge beyond
    rw [isTop, manualGain_beyond above, min_eq_right above.le] at reaches
    exact absurd reaches (by decide)
  · intro inRange
    refine ⟨manualGain_mono ordered inRange,
      ⟨496, isGreatest_manualGain, ?_, ?_⟩, gainLoop_le⟩
    · exact (min_le_left _ _).trans (le_manualGain (ordered.trans inRange))
    · exact (min_le_left _ _).trans (le_manualGain inRange)

/-- A request for 30 dB and one for 40 dB. -/
theorem setGain_monotone_iff_poweredTuner :
    ∃ after afterLarger,
      Yields (setGain true 300).run poweredTuner (.ok ()) after ∧
        Yields (setGain true 400).run poweredTuner (.ok ()) afterLarger ∧
        programmedGain after.bus.chip ≤ programmedGain afterLarger.bus.chip := by
  have done : poweredTuner.AllDone := ⟨fun _ => rfl, fun _ => rfl⟩
  rcases setGain_manual_returns done 300 with ⟨after, yields, _⟩
  rcases setGain_manual_returns done 400 with ⟨afterLarger, yieldsLarger, _⟩
  exact ⟨after, afterLarger, yields, yieldsLarger,
    ((setGain_monotone_iff (by decide) yields yieldsLarger).mpr
      (by decide)).1⟩

/-- A request for 49.7 dB gets less than one for 49.6 dB, and less than it asks for. -/
theorem setGain_not_monotone :
    ∃ after afterLarger,
      Yields (setGain true 496).run poweredTuner (.ok ()) after ∧
        Yields (setGain true 497).run poweredTuner (.ok ()) afterLarger ∧
        programmedGain after.bus.chip = 496 ∧
        programmedGain afterLarger.bus.chip = 488 := by
  have done : poweredTuner.AllDone := ⟨fun _ => rfl, fun _ => rfl⟩
  rcases setGain_manual_returns done 496 with ⟨after, yields, _⟩
  rcases setGain_manual_returns done 497 with ⟨afterLarger, yieldsLarger, _⟩
  refine ⟨after, afterLarger, yields, yieldsLarger, ?_, ?_⟩
  · exact congrArg indexGain (setGain_programs yields)
  · exact (congrArg indexGain (setGain_programs yieldsLarger)).trans
      (manualGain_beyond (by decide))

end Programming

end LibRtlSdr.R82xx
