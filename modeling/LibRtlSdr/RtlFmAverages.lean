import LibRtlSdr.RtlFmLowPass
import LibRtlSdr.RtlFmResample
import Mathlib.Algebra.Order.BigOperators.Group.List
import Mathlib.Algebra.Order.Group.Int
import Mathlib.Tactic.Ring

namespace LibRtlSdr.RtlFm

/-!
# What `low_pass_real` stores lies among its samples

Each output is the sum of its samples divided by the truncated ratio of the rates.
It has as many samples as the ratio says, or one more; with one more the quotient can
leave the range of the samples.  With a ratio of 0 the division is undefined.
-/

open RateShares (share complete)

/-- An output lies between two of the samples. -/
def Between (samples : List Int16) (output : Int16) : Prop :=
  (∃ least ∈ samples, least.toInt ≤ output.toInt) ∧
    ∃ most ∈ samples, output.toInt ≤ most.toInt

/-- Each output lies between its samples, and the cast keeps the quotient. -/
def Averaged (fast slow : Nat) (samples outputs : List Int16) : Prop :=
  ∀ m output,
    outputs[m]? = some output →
      Between (share fast slow m samples) output ∧
        output.toInt =
          (total (share fast slow m samples)).tdiv (fast / slow : Nat)

/--
The one sample more is made up for: the largest sample is less than the ratio above
what the others fall short of it, and so for the least.
-/
def Balanced (ratio : Nat) (samples : List Int16) : Prop :=
  (∃ most ∈ samples,
    (∀ sample ∈ samples, sample.toInt ≤ most.toInt) ∧
      most.toInt <
        ratio + (samples.map (fun sample => most.toInt - sample.toInt)).sum) ∧
    ∃ least ∈ samples,
      (∀ sample ∈ samples, least.toInt ≤ sample.toInt) ∧
        -least.toInt <
          ratio + (samples.map (fun sample => sample.toInt - least.toInt)).sum

section Samples

variable {samples : List Int16}

/-- One of the samples is the greatest by a measure. -/
theorem exists_greatest
    (measure : Int16 → Int)
    (nonempty : samples ≠ []) :
    ∃ greatest ∈ samples, ∀ sample ∈ samples, measure sample ≤ measure greatest := by
  induction samples with
  | nil =>
      exact absurd rfl nonempty
  | cons first rest inductionHypothesis =>
      by_cases single : rest = []
      · exact ⟨first, by simp, by simp [single]⟩
      · obtain ⟨greatest, member, above⟩ := inductionHypothesis single
        rcases Int.le_total (measure first) (measure greatest) with below | beyond
        · refine ⟨greatest, List.mem_cons_of_mem _ member, ?_⟩
          rw [List.forall_mem_cons]
          exact ⟨below, above⟩
        · refine ⟨first, List.mem_cons_self, ?_⟩
          rw [List.forall_mem_cons]
          exact ⟨Int.le_refl _, fun sample inRest => (above sample inRest).trans beyond⟩

/-- Distances from a bound, measured upwards or downwards. -/
theorem sum_distances
    (scale bound : Int)
    (samples : List Int16) :
    (samples.map (fun sample => scale * (sample.toInt - bound))).sum =
      scale * (total samples - samples.length * bound) := by
  induction samples with
  | nil =>
      simp
  | cons sample rest inductionHypothesis =>
      have split : total (sample :: rest) = sample.toInt + total rest := by
        simp [total]
      rw [List.map_cons, List.sum_cons, inductionHypothesis, split,
        List.length_cons]
      push_cast
      ring

/-- What samples fall short of a bound. -/
theorem sum_shortfall
    (bound : Int)
    (samples : List Int16) :
    (samples.map (fun sample => bound - sample.toInt)).sum =
      samples.length * bound - total samples := by
  have downwards := sum_distances (-1) bound samples
  simpa using downwards

/-- What samples exceed a bound by. -/
theorem sum_excess
    (bound : Int)
    (samples : List Int16) :
    (samples.map (fun sample => sample.toInt - bound)).sum =
      total samples - samples.length * bound := by
  have upwards := sum_distances 1 bound samples
  simpa using upwards

theorem total_le
    {bound : Int}
    (below : ∀ sample ∈ samples, sample.toInt ≤ bound) :
    total samples ≤ samples.length * bound := by
  have sum :=
    List.sum_le_card_nsmul (samples.map Int16.toInt) bound
      (List.forall_mem_map.mpr below)
  rwa [List.length_map, nsmul_eq_mul] at sum

theorem le_total
    {bound : Int}
    (above : ∀ sample ∈ samples, bound ≤ sample.toInt) :
    samples.length * bound ≤ total samples := by
  have sum :=
    List.card_nsmul_le_sum (samples.map Int16.toInt) bound
      (List.forall_mem_map.mpr above)
  rwa [List.length_map, nsmul_eq_mul] at sum

/-- A quotient between two samples is stored as it is. -/
theorem between_of_bounds
    {least most : Int16}
    (inLeast : least ∈ samples)
    (inMost : most ∈ samples)
    {quotient : Int}
    (above : least.toInt ≤ quotient)
    (below : quotient ≤ most.toInt) :
    Between samples (Int16.ofInt quotient) ∧
      (Int16.ofInt quotient).toInt = quotient := by
  have exact : (Int16.ofInt quotient).toInt = quotient := by
    have lower := least.le_toInt
    have upper := most.toInt_lt
    rw [toInt_eq_iff_fits]
    unfold Fits
    omega
  refine ⟨⟨⟨least, inLeast, ?_⟩, most, inMost, ?_⟩, exact⟩
  · rw [exact]
    exact above
  · rw [exact]
    exact below

/-- As many samples as the ratio says. -/
theorem average_between_of_length
    {ratio : Nat}
    (positive : 0 < ratio)
    (length : samples.length = ratio) :
    Between samples (Int16.ofInt ((total samples).tdiv ratio)) ∧
      (Int16.ofInt ((total samples).tdiv ratio)).toInt =
        (total samples).tdiv ratio := by
  have nonempty : samples ≠ [] := by
    rintro rfl
    simp at length
    omega
  obtain ⟨most, inMost, upper⟩ := exists_greatest Int16.toInt nonempty
  obtain ⟨least, inLeast, lower⟩ :=
    exists_greatest (fun sample => -sample.toInt) nonempty
  have below := total_le upper
  have above := le_total (fun sample member => Int.neg_le_neg_iff.mp (lower sample member))
  rw [length, Int.mul_comm] at below above
  exact
    between_of_bounds inLeast inMost
      (Int.le_tdiv_of_mul_le (Int.natCast_pos.mpr positive) above)
      (CheckedInt.tdiv_le_of_le_mul (Int.natCast_pos.mpr positive) below)

/-- The largest sample is made up for when the quotient is below it. -/
theorem shortfall_iff
    {ratio : Nat}
    (length : samples.length = ratio + 1)
    (most : Int16) :
    most.toInt <
        ratio + (samples.map (fun sample => most.toInt - sample.toInt)).sum ↔
      total samples < (most.toInt + 1) * ratio := by
  have expanded :
      ((ratio : Int) + 1) * most.toInt = (most.toInt + 1) * ratio - ratio + most.toInt := by
    ring
  rw [sum_shortfall, length]
  push_cast
  omega

/-- The least sample is made up for when the quotient is above it. -/
theorem excess_iff
    {ratio : Nat}
    (length : samples.length = ratio + 1)
    (least : Int16) :
    -least.toInt <
        ratio + (samples.map (fun sample => sample.toInt - least.toInt)).sum ↔
      (least.toInt - 1) * ratio < total samples := by
  have expanded :
      ((ratio : Int) + 1) * least.toInt =
        (least.toInt - 1) * ratio + ratio + least.toInt := by
    ring
  rw [sum_excess, length]
  push_cast
  omega

/-- One sample more than the ratio says. -/
theorem average_between_iff
    {ratio : Nat}
    (positive : 0 < ratio)
    (length : samples.length = ratio + 1) :
    (Between samples (Int16.ofInt ((total samples).tdiv ratio)) ∧
        (Int16.ofInt ((total samples).tdiv ratio)).toInt =
          (total samples).tdiv ratio) ↔
      Balanced ratio samples := by
  have ratioPositive : (0 : Int) < ratio := Int.natCast_pos.mpr positive
  constructor
  · rintro ⟨⟨⟨low, inLow, above⟩, high, inHigh, below⟩, exact⟩
    rw [exact] at above below
    have nonempty : samples ≠ [] := List.ne_nil_of_mem inLow
    obtain ⟨most, inMost, upper⟩ := exists_greatest Int16.toInt nonempty
    obtain ⟨least, inLeast, lower⟩ :=
      exists_greatest (fun sample => -sample.toInt) nonempty
    refine
      ⟨⟨most, inMost, upper, (shortfall_iff length most).mpr ?_⟩,
        least, inLeast,
        fun sample member => Int.neg_le_neg_iff.mp (lower sample member),
        (excess_iff length least).mpr ?_⟩
    · have atMost := upper high inHigh
      exact Int.lt_mul_of_tdiv_lt ratioPositive (by omega)
    · have atLeast := lower low inLow
      exact CheckedInt.mul_lt_of_le_tdiv ratioPositive (by omega)
  · rintro ⟨⟨most, inMost, upper, madeUp⟩, least, inLeast, lower, madeDown⟩
    rw [shortfall_iff length] at madeUp
    rw [excess_iff length] at madeDown
    have below := total_le upper
    have above := le_total lower
    rw [length] at below above
    push_cast at below above
    apply between_of_bounds inLeast inMost
    · rcases Int.le_total least.toInt 0 with nonpos | nonneg
      · exact CheckedInt.le_tdiv_of_mul_lt ratioPositive nonpos madeDown
      · apply Int.le_tdiv_of_mul_le ratioPositive
        have expanded :
            ((ratio : Int) + 1) * least.toInt = least.toInt * ratio + least.toInt := by
          ring
        omega
    · rcases Int.le_total 0 most.toInt with nonneg | nonpos
      · exact CheckedInt.tdiv_le_of_lt_mul ratioPositive nonneg madeUp
      · apply CheckedInt.tdiv_le_of_le_mul ratioPositive
        have expanded :
            ((ratio : Int) + 1) * most.toInt = most.toInt * ratio + most.toInt := by
          ring
        omega

end Samples

/-! ## Runs -/

/-- To a rate above that of the input, the first sample is divided by zero. -/
theorem feed?_of_faster
    {fast slow : Nat}
    (faster : fast < slow)
    {samples : List Int16}
    (nonempty : samples ≠ []) :
    feed? (fresh fast slow) samples = none := by
  obtain ⟨sample, rest, rfl⟩ := List.exists_cons_of_ne_nil nonempty
  have ratio : (fast : Int).tdiv slow = 0 :=
    Int.tdiv_eq_zero_of_lt (by omega) (by omega)
  apply Option.eq_none_iff_forall_ne_some.mpr
  intro fed done
  simp only [feed?, take?, Option.bind_eq_bind, Option.bind_eq_some_iff] at done
  obtain ⟨taken, ⟨nowLpr, -, index, stepped, taking⟩, -⟩ := done
  have isSlow : (0 : Int) + slow = index :=
    (CheckedInt.int?_eq_some_iff.mp stepped).2
  have reached : ¬ index < (fresh fast slow).rateOut := by
    simp only [fresh]
    omega
  rw [if_neg reached] at taking
  obtain ⟨divisor, dividing, output, divided, -⟩ := by
    simpa only [Option.bind_eq_some_iff] using taking
  have isZero : divisor = 0 := by
    have quotient := (CheckedInt.div?_eq_some_iff.mp dividing).2.2
    exact quotient.symm.trans ratio
  rw [isZero, CheckedInt.div?_zero] at divided
  cases divided

/-- When each output of a stream lies among its samples. -/
theorem averaged_outputsOf_iff
    {fast slow : Nat}
    (positive : 0 < slow)
    (slower : slow ≤ fast)
    (samples : List Int16) :
    Averaged fast slow samples (outputsOf fast slow samples) ↔
      ∀ m < complete fast slow samples.length,
        (share fast slow m samples).length = fast / slow ∨
          Balanced (fast / slow) (share fast slow m samples) := by
  have ratio : 0 < fast / slow := Nat.div_pos slower positive
  have stored :
      ∀ m < complete fast slow samples.length,
        (outputsOf fast slow samples)[m]? =
          some (average fast slow (share fast slow m samples)) := by
    intro m isComplete
    unfold outputsOf
    rw [List.getElem?_map, List.getElem?_range isComplete, Option.map_some]
  have noMore :
      ∀ m, complete fast slow samples.length ≤ m →
        (outputsOf fast slow samples)[m]? = none := by
    intro m beyond
    apply List.getElem?_eq_none
    simpa [outputsOf] using beyond
  constructor
  · intro averaged m isComplete
    have output := averaged m _ (stored m isComplete)
    rcases RateShares.length_share positive slower isComplete with exact | oneMore
    · exact .inl exact
    · exact .inr ((average_between_iff ratio oneMore).mp output)
  · intro balanced m output isOutput
    rcases Nat.lt_or_ge m (complete fast slow samples.length) with isComplete | beyond
    · rw [stored m isComplete, Option.some.injEq] at isOutput
      rw [← isOutput]
      rcases RateShares.length_share positive slower isComplete with exact | oneMore
      · exact average_between_of_length ratio exact
      · rcases balanced m isComplete with exact | balanced
        · exact average_between_of_length ratio exact
        · exact (average_between_iff ratio oneMore).mpr balanced
    · rw [noMore m beyond] at isOutput
      cases isOutput

/--
For every pair of rates, every stream and wherever its blocks end: the divisions are
defined and each output lies between its samples if and only if there are no samples,
or the output rate is not above the input rate, no `int` overflows, and each output
with one sample more than the ratio says is balanced.
-/
theorem lowPassReal_averages_iff
    {s : Resampler}
    {fast slow : Nat}
    (starts : s.toGathering = fresh fast slow)
    (slowPositive : 0 < slow)
    (blocks : List (List Int16)) :
    (∃ outputs last,
      resampleBlocks s blocks = some (outputs, last) ∧
        Averaged fast slow blocks.flatten outputs) ↔
      blocks.flatten = [] ∨
        (slow ≤ fast ∧ NoOverflow fast slow blocks.flatten ∧
          ∀ m < complete fast slow blocks.flatten.length,
            (share fast slow m blocks.flatten).length = fast / slow ∨
              Balanced (fast / slow) (share fast slow m blocks.flatten)) := by
  by_cases slower : slow ≤ fast
  · constructor
    · rintro ⟨outputs, last, ran, averaged⟩
      have noOverflow := noOverflow_of_resampleBlocks starts slowPositive slower ran
      obtain ⟨_, same, -⟩ :=
        resampleBlocks_fresh starts slowPositive slower noOverflow
      rw [same, Option.some.injEq, Prod.mk.injEq] at ran
      rw [← ran.1, averaged_outputsOf_iff slowPositive slower] at averaged
      exact .inr ⟨slower, noOverflow, averaged⟩
    · intro condition
      have holds :
          NoOverflow fast slow blocks.flatten ∧
            Averaged fast slow blocks.flatten
              (outputsOf fast slow blocks.flatten) := by
        rcases condition with empty | ⟨-, noOverflow, balanced⟩
        · rw [empty]
          refine ⟨fun k lower => absurd lower (Nat.not_lt_zero k), ?_⟩
          intro m output isOutput
          simp [outputsOf, complete] at isOutput
        · exact
            ⟨noOverflow, (averaged_outputsOf_iff slowPositive slower _).mpr balanced⟩
      obtain ⟨last, ran, -⟩ :=
        resampleBlocks_fresh starts slowPositive slower holds.1
      exact ⟨_, last, ran, holds.2⟩
  · have positiveRate : 0 < s.rateOut2 := by
      rw [starts]
      exact Int.natCast_pos.mpr slowPositive
    have fed := resampleBlocks_feed positiveRate blocks
    rw [starts] at fed
    constructor
    · rintro ⟨outputs, last, ran, -⟩
      left
      by_contra nonempty
      rw [feed?_of_faster (Nat.not_le.mp slower) nonempty, ran] at fed
      cases fed
    · rintro (empty | ⟨notSlower, -⟩)
      · rw [empty, feed?, Option.map_eq_some_iff] at fed
        obtain ⟨done, ran, same⟩ := fed
        refine ⟨done.1, done.2, ran, ?_⟩
        rw [(Prod.mk.inj same).1]
        intro m output isOutput
        cases isOutput
      · exact absurd notSlower slower

/-- Two outputs of two samples each, in two blocks. -/
theorem lowPassReal_averages_two_of_four :
    ∃ outputs last,
      resampleBlocks (initialResampler 4 2) [[10, 20, 30], [40]] =
          some (outputs, last) ∧
        Averaged 4 2 [[10, 20, 30], [40]].flatten outputs := by
  apply
    (lowPassReal_averages_iff (s := initialResampler 4 2) rfl (by decide)
      [[10, 20, 30], [40]]).mpr
  right
  refine ⟨by decide, by unfold NoOverflow; decide, ?_⟩
  intro m isComplete
  left
  revert m
  decide

/--
At the rates of `wbfm` six samples of 32767 are divided by five and stored as -26216;
at 48 kHz out of 24 kHz the first sample is divided by zero.
-/
theorem lowPassReal_not_averages :
    (¬ ∃ outputs last,
      resampleBlocks (initialResampler 170000 32000)
          [List.replicate 6 32767] = some (outputs, last) ∧
        Averaged 170000 32000 [List.replicate 6 32767].flatten outputs) ∧
      ¬ ∃ outputs last,
        resampleBlocks (initialResampler 24000 48000) [[0]] =
            some (outputs, last) ∧
          Averaged 24000 48000 [[0]].flatten outputs := by
  constructor
  · rintro ⟨outputs, last, ran, averaged⟩
    have stored : outputs = [-26216] := by
      have computed :
          (resampleBlocks (initialResampler 170000 32000)
            [List.replicate 6 32767]).map Prod.fst = some [-26216] := by
        decide
      rw [ran, Option.map_some, Option.some.injEq] at computed
      exact computed
    obtain ⟨⟨⟨least, member, below⟩, -⟩, -⟩ :=
      averaged 0 (-26216) (by rw [stored]; rfl)
    have constant :
        share 170000 32000 0 [List.replicate 6 (32767 : Int16)].flatten =
          List.replicate 6 32767 := by
      decide
    rw [constant] at member
    rw [List.eq_of_mem_replicate member] at below
    revert below
    decide
  · rintro ⟨outputs, last, ran, -⟩
    have undefined :
        (resampleBlocks (initialResampler 24000 48000) [[0]]).isNone := by
      decide
    rw [ran] at undefined
    cases undefined

end LibRtlSdr.RtlFm
