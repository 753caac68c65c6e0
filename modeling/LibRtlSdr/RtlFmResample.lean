import LibRtlSdr.BoundedBuffer
import LibRtlSdr.CheckedInt
import LibRtlSdr.RateShares
import Mathlib.Algebra.BigOperators.Group.List.Basic
import Mathlib.Tactic.NormNum

namespace LibRtlSdr.RtlFm

/-!
# The output rate of `rtl_fm`: `low_pass_real`

Samples come at `rate_out` and are added up in `now_lpr`; `prev_lpr_index` grows by
`rate_out2` with each, and when it reaches `rate_out` the sum is divided by the
truncated ratio of the rates and stored over the samples that were read.  What a
block does not complete is carried to the next one.  A sum that leaves the `int` has
no result.
-/

open BoundedBuffer (window blit)
open CheckedInt (add? sub? div?)
open RateShares (share complete progress)

/-- What `low_pass_real` carries from block to block, and the two rates. -/
structure Gathering where
  rateOut : Int
  rateOut2 : Int
  nowLpr : Int
  prevLprIndex : Int

/-- What `low_pass_real` uses of `struct demod_state`. -/
structure Resampler extends Gathering where
  result : Nat → Int16
  resultLen : Nat

/-! ## Source -/

/-- A turn of the loop of `low_pass_real` at `i`, with `i2` outputs stored. -/
def lowPassRealTurn
    (s : Resampler)
    (i2 i : Nat) :
    Option (Resampler × Nat) := do
  let nowLpr ← add? s.nowLpr (s.result i).toInt
  let index ← add? s.prevLprIndex s.rateOut2
  if index < s.rateOut then
    return ({ s with nowLpr := nowLpr, prevLprIndex := index }, i2)
  else
    let divisor ← div? s.rateOut s.rateOut2
    let output ← div? nowLpr divisor
    let rest ← sub? index s.rateOut
    return ({
      s with
      result := Function.update s.result i2 (Int16.ofInt output)
      prevLprIndex := rest
      nowLpr := 0
    }, i2 + 1)

/-- The loop of `low_pass_real`, over the indices of the samples. -/
def lowPassRealLoop (s : Resampler) (i2 : Nat) (indices : List Nat) :
    Option (Resampler × Nat) :=
  indices.foldlM (fun turn i => lowPassRealTurn turn.1 turn.2 i) (s, i2)

/-- `low_pass_real`. -/
def lowPassReal (s : Resampler) : Option Resampler := do
  let done ← lowPassRealLoop s 0 (List.range s.resultLen)
  return { done.1 with resultLen := done.2 }

/-- A block of audio in `full_demod`, which resamples only to a positive rate. -/
def resampleBlock (s : Resampler) (block : List Int16) : Option Resampler :=
  let demodulated :=
    { s with
      result := blit 0 block s.result
      resultLen := block.length }
  if 0 < s.rateOut2 then
    lowPassReal demodulated
  else
    some demodulated

/-- The outputs of all blocks, and the last state. -/
def resampleBlocks :
    Resampler → List (List Int16) → Option (List Int16 × Resampler)
  | s, [] =>
      some ([], s)
  | s, block :: rest => do
      let called ← resampleBlock s block
      let later ← resampleBlocks called rest
      return (window called.result 0 called.resultLen ++ later.1, later.2)

/-! ## The stream -/

/-- What one sample completes, and what is carried behind it. -/
def take? (g : Gathering) (sample : Int16) : Option (List Int16 × Gathering) := do
  let nowLpr ← add? g.nowLpr sample.toInt
  let index ← add? g.prevLprIndex g.rateOut2
  if index < g.rateOut then
    return ([], { g with nowLpr := nowLpr, prevLprIndex := index })
  else
    let divisor ← div? g.rateOut g.rateOut2
    let output ← div? nowLpr divisor
    let rest ← sub? index g.rateOut
    return ([Int16.ofInt output], { g with nowLpr := 0, prevLprIndex := rest })

/-- What a stream completes. -/
def feed? : Gathering → List Int16 → Option (List Int16 × Gathering)
  | g, [] =>
      some ([], g)
  | g, sample :: rest => do
      let first ← take? g sample
      let later ← feed? first.2 rest
      return (first.1 ++ later.1, later.2)

/-- The outputs of two stretches of a stream, one after the other. -/
theorem feed?_append
    (g : Gathering)
    (first second : List Int16) :
    feed? g (first ++ second) =
      (feed? g first).bind (fun fed =>
        (feed? fed.2 second).map (fun later =>
          (fed.1 ++ later.1, later.2))) := by
  induction first generalizing g with
  | nil =>
      simp [feed?]
  | cons sample rest inductionHypothesis =>
      rw [List.cons_append, feed?, feed?]
      simp only [inductionHypothesis, Option.map_eq_bind, Option.bind_eq_bind,
        Option.bind_assoc, Option.pure_def, Option.bind_some, Function.comp_def,
        List.append_assoc]

/-- A stream of one sample more. -/
theorem feed?_concat
    (g : Gathering)
    (samples : List Int16)
    (sample : Int16) :
    feed? g (samples ++ [sample]) =
      (feed? g samples).bind (fun fed =>
        (take? fed.2 sample).map (fun last => (fed.1 ++ last.1, last.2))) := by
  rw [feed?_append]
  congr 1
  funext fed
  simp [feed?, Option.map_eq_bind]

/-- A turn takes the sample at `i` and stores what it completes at `i2`. -/
theorem lowPassRealTurn_take
    (s : Resampler)
    (i2 i : Nat) :
    lowPassRealTurn s i2 i =
      (take? s.toGathering (s.result i)).map (fun taken =>
        ({ s with
            toGathering := taken.2
            result := blit i2 taken.1 s.result }, i2 + taken.1.length)) := by
  unfold lowPassRealTurn take?
  simp only [Option.bind_eq_bind, Option.map_bind]
  congr 1
  funext nowLpr
  rw [Function.comp_apply, Option.map_bind]
  congr 1
  funext index
  rw [Function.comp_apply]
  by_cases within : index < s.rateOut
  · simp [within]
  · simp [within, Option.map_bind, BoundedBuffer.blit_singleton]

/-- One sample completes at most one output, and the rates stay as they are. -/
theorem take?_taken
    {g : Gathering}
    {sample : Int16}
    {taken : List Int16 × Gathering}
    (done : take? g sample = some taken) :
    taken.1.length ≤ 1 ∧
      taken.2.rateOut = g.rateOut ∧ taken.2.rateOut2 = g.rateOut2 := by
  unfold take? at done
  simp only [Option.bind_eq_bind, Option.bind_eq_some_iff] at done
  obtain ⟨nowLpr, -, index, -, done⟩ := done
  by_cases within : index < g.rateOut
  · rw [if_pos within, Option.pure_def, Option.some.injEq] at done
    simp [← done]
  · rw [if_neg within] at done
    simp only [Option.bind_eq_some_iff] at done
    obtain ⟨divisor, -, output, -, rest, -, done⟩ := done
    rw [Option.pure_def, Option.some.injEq] at done
    simp [← done]

/--
The loop takes the samples from `i` on.  The write position never passes the read
position, so nothing is overwritten before it has been read.
-/
theorem lowPassRealLoop_feed
    (count : Nat)
    (s : Resampler)
    {i2 i : Nat}
    (behind : i2 ≤ i) :
    (lowPassRealLoop s i2 (List.range' i count)).map (fun done =>
        (window done.1.result 0 done.2, done.1.toGathering)) =
      (feed? s.toGathering (window s.result i count)).map (fun fed =>
        (window s.result 0 i2 ++ fed.1, fed.2)) := by
  induction count generalizing s i2 i with
  | zero =>
      simp [lowPassRealLoop, window, feed?]
  | succ count inductionHypothesis =>
      have samples :
          window s.result i (count + 1) =
            s.result i :: window s.result (i + 1) count :=
        rfl
      rw [samples, feed?, List.range'_succ]
      unfold lowPassRealLoop
      rw [List.foldlM_cons, lowPassRealTurn_take]
      cases taking : take? s.toGathering (s.result i) with
      | none =>
          rfl
      | some taken =>
          have short := (take?_taken taking).1
          have later :=
            @inductionHypothesis
              { s with
                toGathering := taken.2
                result := blit i2 taken.1 s.result }
              (i2 + taken.1.length) (i + 1) (by omega)
          have unread :
              window (blit i2 taken.1 s.result) (i + 1) count =
                window s.result (i + 1) count :=
            BoundedBuffer.window_blit_of_disjoint (.inr (by omega)) s.result
          have stored :
              window (blit i2 taken.1 s.result) 0 (i2 + taken.1.length) =
                window s.result 0 i2 ++ taken.1 := by
            have appended :=
              BoundedBuffer.window_blit_append 0 i2 taken.1 s.result
            rwa [Nat.zero_add] at appended
          rw [unread, stored] at later
          simp only [Option.map_some, Option.bind_eq_bind, Option.bind_some]
          refine later.trans ?_
          simp [Option.map_eq_bind, Option.bind_assoc]

/-- A call of `low_pass_real` on the samples of a block. -/
theorem resampleBlock_feed
    {s : Resampler}
    (positive : 0 < s.rateOut2)
    (block : List Int16) :
    (resampleBlock s block).map (fun called =>
        (window called.result 0 called.resultLen, called.toGathering)) =
      feed? s.toGathering block := by
  have looped :=
    lowPassRealLoop_feed block.length
      { s with
        result := blit 0 block s.result
        resultLen := block.length }
      (Nat.le_refl 0)
  rw [BoundedBuffer.window_blit_self, ← List.range_eq_range'] at looped
  unfold resampleBlock lowPassReal
  rw [if_pos positive]
  simpa [Option.map_eq_bind, Option.bind_assoc, window] using looped

/-- The rates stay as they are. -/
theorem rates_feed?
    {g : Gathering}
    {samples : List Int16}
    {fed : List Int16 × Gathering}
    (done : feed? g samples = some fed) :
    fed.2.rateOut = g.rateOut ∧ fed.2.rateOut2 = g.rateOut2 := by
  induction samples generalizing g fed with
  | nil =>
      cases done
      exact ⟨rfl, rfl⟩
  | cons sample rest inductionHypothesis =>
      simp only [feed?, Option.bind_eq_bind, Option.bind_eq_some_iff] at done
      obtain ⟨taken, taking, later, feeding, done⟩ := done
      rw [Option.pure_def, Option.some.injEq] at done
      have first := (take?_taken taking).2
      have rest := inductionHypothesis feeding
      rw [← done]
      exact ⟨rest.1.trans first.1, rest.2.trans first.2⟩

/-- The blocks are fed one after the other. -/
theorem resampleBlocks_feed
    {s : Resampler}
    (positive : 0 < s.rateOut2)
    (blocks : List (List Int16)) :
    (resampleBlocks s blocks).map (fun done => (done.1, done.2.toGathering)) =
      feed? s.toGathering blocks.flatten := by
  induction blocks generalizing s with
  | nil =>
      rfl
  | cons block rest inductionHypothesis =>
      rw [List.flatten_cons, feed?_append, ← resampleBlock_feed positive,
        resampleBlocks]
      cases calling : resampleBlock s block with
      | none =>
          rfl
      | some called =>
          have fed := resampleBlock_feed positive block
          rw [calling, Option.map_some] at fed
          have kept := (rates_feed? fed.symm).2
          have later := inductionHypothesis (s := called) (by rw [kept]; exact positive)
          simp [Option.map_eq_bind, Option.bind_assoc, ← later]

/-! ## The law of the rates -/

/-- No sample has been taken. -/
def fresh (fast slow : Nat) : Gathering where
  rateOut := fast
  rateOut2 := slow
  nowLpr := 0
  prevLprIndex := 0

/-- The exact sum of samples. -/
def total (samples : List Int16) : Int :=
  (samples.map Int16.toInt).sum

/-- What is stored for the samples of an output. -/
def average (fast slow : Nat) (samples : List Int16) : Int16 :=
  Int16.ofInt ((total samples).tdiv (fast / slow : Nat))

/-- The outputs of a stream: one for each complete share. -/
def outputsOf (fast slow : Nat) (samples : List Int16) : List Int16 :=
  (List.range (complete fast slow samples.length)).map
    (fun m => average fast slow (share fast slow m samples))

/-- What is carried behind a stream: the share under way. -/
def carriedBehind (fast slow : Nat) (samples : List Int16) : Gathering where
  rateOut := fast
  rateOut2 := slow
  nowLpr :=
    total (share fast slow (complete fast slow samples.length) samples)
  prevLprIndex := progress fast slow samples.length

/--
At no sample the index and its step, or the samples of one output so far, add up to
more than an `int` holds.
-/
def NoOverflow (fast slow : Nat) (samples : List Int16) : Prop :=
  ∀ k < samples.length,
    CheckedInt.Fits (progress fast slow k + slow) ∧
      CheckedInt.Fits
        (total (share fast slow (complete fast slow k) (samples.take (k + 1))))

@[simp] theorem total_nil : total [] = 0 :=
  rfl

theorem total_append
    (first second : List Int16) :
    total (first ++ second) = total first + total second := by
  simp [total]

theorem total_singleton
    (sample : Int16) :
    total [sample] = sample.toInt := by
  simp [total]

/-- The condition on a stream of one sample more. -/
theorem noOverflow_concat
    {fast slow : Nat}
    {samples : List Int16}
    {sample : Int16} :
    NoOverflow fast slow (samples ++ [sample]) ↔
      NoOverflow fast slow samples ∧
        CheckedInt.Fits (progress fast slow samples.length + slow) ∧
          CheckedInt.Fits
            (total
              (share fast slow (complete fast slow samples.length)
                (samples ++ [sample]))) := by
  have whole : (samples ++ [sample]).take (samples.length + 1) = samples ++ [sample] :=
    List.take_of_length_le (by simp)
  have earlier :
      ∀ k < samples.length,
        (samples ++ [sample]).take (k + 1) = samples.take (k + 1) :=
    fun k lower => List.take_append_of_le_length lower
  constructor
  · intro noOverflow
    refine ⟨?_, ?_⟩
    · intro k lower
      rw [← earlier k lower]
      exact noOverflow k (by rw [List.length_append]; omega)
    · have last := noOverflow samples.length (by simp)
      rwa [whole] at last
  · rintro ⟨noOverflow, last⟩ k lower
    rw [List.length_append, List.length_singleton] at lower
    rcases Nat.lt_succ_iff_lt_or_eq.mp lower with before | rfl
    · rw [earlier k before]
      exact noOverflow k before
    · rw [whole]
      exact last

/-- The outputs so far do not change with the next sample. -/
theorem outputsOf_earlier
    (fast slow : Nat)
    (samples : List Int16)
    (sample : Int16) :
    (List.range (complete fast slow samples.length)).map
        (fun m => average fast slow (share fast slow m (samples ++ [sample]))) =
      outputsOf fast slow samples := by
  apply List.map_congr_left
  intro m inRange
  have earlier := List.mem_range.mp inRange
  rw [RateShares.share_concat_of_ne (Nat.ne_of_lt earlier)]

/-- A sample that completes nothing leaves the outputs. -/
theorem outputsOf_concat_within
    {fast slow : Nat}
    {samples : List Int16}
    (same :
      complete fast slow (samples.length + 1) = complete fast slow samples.length)
    (sample : Int16) :
    outputsOf fast slow (samples ++ [sample]) = outputsOf fast slow samples := by
  unfold outputsOf
  rw [List.length_append, List.length_singleton, same, outputsOf_earlier]
  rfl

/-- A sample that completes a share adds the output of it. -/
theorem outputsOf_concat_complete
    {fast slow : Nat}
    {samples : List Int16}
    (next :
      complete fast slow (samples.length + 1) =
        complete fast slow samples.length + 1)
    (sample : Int16) :
    outputsOf fast slow (samples ++ [sample]) =
      outputsOf fast slow samples ++
        [average fast slow
          (share fast slow (complete fast slow samples.length)
            (samples ++ [sample]))] := by
  unfold outputsOf
  rw [List.length_append, List.length_singleton, next, List.range_succ,
    List.map_append, outputsOf_earlier]
  rfl

/-- The divisor of `low_pass_real`. -/
theorem div?_rates
    {fast slow : Nat}
    (positive : 0 < slow)
    (fits : CheckedInt.Fits fast) :
    div? (fast : Int) slow = some ((fast / slow : Nat) : Int) := by
  rw [CheckedInt.div?_of_pos fits (Int.natCast_pos.mpr positive),
    Int.tdiv_eq_ediv_of_nonneg (Int.natCast_nonneg _), Int.natCast_ediv]

/-- A sample that overflows nothing. -/
theorem take?_carriedBehind
    {fast slow : Nat}
    (positive : 0 < slow)
    (slower : slow ≤ fast)
    {samples : List Int16}
    {sample : Int16}
    (indexFits : CheckedInt.Fits (progress fast slow samples.length + slow))
    (sumFits :
      CheckedInt.Fits
        (total
          (share fast slow (complete fast slow samples.length)
            (samples ++ [sample])))) :
    ∃ last,
      take? (carriedBehind fast slow samples) sample =
          some (last, carriedBehind fast slow (samples ++ [sample])) ∧
        outputsOf fast slow (samples ++ [sample]) =
          outputsOf fast slow samples ++ last := by
  have sum :
      add? (carriedBehind fast slow samples).nowLpr sample.toInt =
        some
          (total
            (share fast slow (complete fast slow samples.length)
              (samples ++ [sample]))) := by
    rw [← CheckedInt.int?_of_fits sumFits, RateShares.share_concat_self,
      total_append, total_singleton]
    rfl
  have index :
      add? (carriedBehind fast slow samples).prevLprIndex
          (carriedBehind fast slow samples).rateOut2 =
        some (progress fast slow samples.length + slow : Int) :=
    CheckedInt.int?_of_fits indexFits
  unfold take?
  rw [sum, index]
  simp only [Option.bind_eq_bind, Option.bind_some]
  by_cases within : progress fast slow samples.length + slow < fast
  · obtain ⟨same, further⟩ := RateShares.within_succ within
    have below :
        (progress fast slow samples.length + slow : Int) <
          (carriedBehind fast slow samples).rateOut := by
      simp only [carriedBehind]
      omega
    refine ⟨[], ?_, ?_⟩
    · rw [if_pos below]
      simp [carriedBehind, same, further]
    · rw [outputsOf_concat_within same, List.append_nil]
  · obtain ⟨next, rest⟩ :=
      RateShares.complete_succ (by omega) slower (Nat.not_lt.mp within)
    have reached :
        ¬ (progress fast slow samples.length + slow : Int) <
          (carriedBehind fast slow samples).rateOut := by
      simp only [carriedBehind]
      omega
    have ratio : 0 < fast / slow := Nat.div_pos slower positive
    have divisor :
        div? (carriedBehind fast slow samples).rateOut
            (carriedBehind fast slow samples).rateOut2 =
          some ((fast / slow : Nat) : Int) := by
      apply div?_rates positive
      unfold CheckedInt.Fits at *
      omega
    have remainder :
        sub? (progress fast slow samples.length + slow)
            (carriedBehind fast slow samples).rateOut =
          some ((progress fast slow (samples.length + 1) : Nat) : Int) := by
      have exact :
          (progress fast slow samples.length + slow : Int) - fast =
            (progress fast slow (samples.length + 1) : Nat) := by
        omega
      simp only [carriedBehind, sub?]
      rw [exact]
      unfold CheckedInt.Fits at indexFits
      exact CheckedInt.int?_of_fits (by unfold CheckedInt.Fits; omega)
    refine
      ⟨[average fast slow
          (share fast slow (complete fast slow samples.length)
            (samples ++ [sample]))], ?_, ?_⟩
    · rw [if_neg reached, divisor, remainder]
      simp only [Option.bind_some]
      rw [CheckedInt.div?_of_pos sumFits (by omega)]
      simp [carriedBehind, next, RateShares.share_next, average]
    · exact outputsOf_concat_complete next sample

/-- A sample that overflows the index or the sum. -/
theorem take?_of_overflow
    {fast slow : Nat}
    {samples : List Int16}
    {sample : Int16}
    (overflow :
      ¬ (CheckedInt.Fits (progress fast slow samples.length + slow) ∧
        CheckedInt.Fits
          (total
            (share fast slow (complete fast slow samples.length)
              (samples ++ [sample]))))) :
    take? (carriedBehind fast slow samples) sample = none := by
  have sum :
      (carriedBehind fast slow samples).nowLpr + sample.toInt =
        total
          (share fast slow (complete fast slow samples.length)
            (samples ++ [sample])) := by
    rw [RateShares.share_concat_self, total_append, total_singleton]
    rfl
  unfold take? add?
  rw [sum]
  by_cases sumFits :
      CheckedInt.Fits
        (total
          (share fast slow (complete fast slow samples.length)
            (samples ++ [sample])))
  · have indexOverflow :
        CheckedInt.int?
            ((carriedBehind fast slow samples).prevLprIndex +
              (carriedBehind fast slow samples).rateOut2) =
          none :=
      CheckedInt.int?_of_not_fits (fun indexFits => overflow ⟨indexFits, sumFits⟩)
    rw [indexOverflow, CheckedInt.int?_of_fits sumFits]
    rfl
  · rw [CheckedInt.int?_of_not_fits sumFits]
    rfl

/-- The law: where nothing overflows, a share is an output or under way. -/
theorem feed?_fresh
    {fast slow : Nat}
    (positive : 0 < slow)
    (slower : slow ≤ fast)
    {samples : List Int16}
    (noOverflow : NoOverflow fast slow samples) :
    feed? (fresh fast slow) samples =
      some (outputsOf fast slow samples, carriedBehind fast slow samples) := by
  induction samples using List.reverseRecOn with
  | nil =>
      simp [feed?, fresh, outputsOf, carriedBehind, complete, progress]
  | append_singleton samples sample inductionHypothesis =>
      obtain ⟨before, indexFits, sumFits⟩ := noOverflow_concat.mp noOverflow
      obtain ⟨last, taken, outputs⟩ :=
        take?_carriedBehind positive slower indexFits sumFits
      rw [feed?_concat, inductionHypothesis before, Option.bind_some, taken,
        outputs]
      rfl

/-- A stream that is taken overflows nothing. -/
theorem noOverflow_of_feed?
    {fast slow : Nat}
    (positive : 0 < slow)
    (slower : slow ≤ fast)
    {samples : List Int16}
    {fed : List Int16 × Gathering}
    (done : feed? (fresh fast slow) samples = some fed) :
    NoOverflow fast slow samples := by
  induction samples using List.reverseRecOn generalizing fed with
  | nil =>
      intro k lower
      simp at lower
  | append_singleton samples sample inductionHypothesis =>
      rw [feed?_concat] at done
      obtain ⟨before, feeding, taking⟩ := Option.bind_eq_some_iff.mp done
      have noOverflow := inductionHypothesis feeding
      rw [feed?_fresh positive slower noOverflow, Option.some.injEq] at feeding
      rw [← feeding] at taking
      apply noOverflow_concat.mpr
      refine ⟨noOverflow, ?_⟩
      by_contra overflow
      rw [take?_of_overflow overflow] at taking
      cases taking

/-- A run from the start is undefined or follows the law. -/
theorem resampleBlocks_fresh
    {s : Resampler}
    {fast slow : Nat}
    (starts : s.toGathering = fresh fast slow)
    (positive : 0 < slow)
    (slower : slow ≤ fast)
    {blocks : List (List Int16)}
    (noOverflow : NoOverflow fast slow blocks.flatten) :
    ∃ last,
      resampleBlocks s blocks = some (outputsOf fast slow blocks.flatten, last) ∧
        last.toGathering = carriedBehind fast slow blocks.flatten := by
  have positiveRate : 0 < s.rateOut2 := by
    rw [starts]
    exact Int.natCast_pos.mpr positive
  have fed := resampleBlocks_feed positiveRate blocks
  rw [starts, feed?_fresh positive slower noOverflow, Option.map_eq_some_iff] at fed
  obtain ⟨done, ran, same⟩ := fed
  obtain ⟨sameOutputs, sameGathering⟩ := Prod.mk.inj same
  exact ⟨done.2, by rw [ran, ← sameOutputs], sameGathering⟩

/-- A run that is defined overflows nothing. -/
theorem noOverflow_of_resampleBlocks
    {s : Resampler}
    {fast slow : Nat}
    (starts : s.toGathering = fresh fast slow)
    (positive : 0 < slow)
    (slower : slow ≤ fast)
    {blocks : List (List Int16)}
    {done : List Int16 × Resampler}
    (ran : resampleBlocks s blocks = some done) :
    NoOverflow fast slow blocks.flatten := by
  have positiveRate : 0 < s.rateOut2 := by
    rw [starts]
    exact Int.natCast_pos.mpr positive
  have fed := resampleBlocks_feed positiveRate blocks
  rw [starts, ran, Option.map_some] at fed
  exact noOverflow_of_feed? positive slower fed.symm

/-- What overflows nothing does not do so in its first part. -/
theorem noOverflow_of_append
    {fast slow : Nat}
    {first second : List Int16}
    (noOverflow : NoOverflow fast slow (first ++ second)) :
    NoOverflow fast slow first := by
  intro k lower
  have whole := noOverflow k (by rw [List.length_append]; omega)
  rwa [List.take_append_of_le_length lower] at whole

/--
The law of the rates for a stream: the number of outputs, the remainder, and that
each sample is in one output or pending.
-/
structure RateLaw
    (fast slow : Nat)
    (samples outputs : List Int16)
    (last : Gathering) : Prop where
  count : outputs.length = samples.length * slow / fast
  index : 0 ≤ last.prevLprIndex ∧ last.prevLprIndex < fast
  contributions :
    ∃ (groups : List (List Int16)) (pending : List Int16),
      groups.flatten ++ pending = samples ∧
        outputs = groups.map (average fast slow) ∧
        last.nowLpr = total pending

theorem rateLaw_outputsOf
    {fast slow : Nat}
    (positive : 0 < slow)
    (slower : slow ≤ fast)
    (samples : List Int16) :
    RateLaw fast slow samples (outputsOf fast slow samples)
      (carriedBehind fast slow samples) := by
  constructor
  · simp [outputsOf, complete]
  · have below :=
      RateShares.progress_lt slow (show 0 < fast by omega) samples.length
    simp only [carriedBehind]
    omega
  · exact
      ⟨_, _, RateShares.flatten_shares positive slower samples,
        by rw [List.map_map]; rfl, rfl⟩

/--
`low_pass_real` from its start, for every stream and wherever its blocks end: the law
of the rates holds at the end of every block if and only if no `int` overflows.
-/
theorem lowPassReal_rate_iff
    {s : Resampler}
    {fast slow : Nat}
    (starts : s.toGathering = fresh fast slow)
    (positive : 0 < slow)
    (slower : slow ≤ fast)
    (blocks : List (List Int16)) :
    (∀ earlier later, blocks = earlier ++ later →
      ∃ outputs last,
        resampleBlocks s earlier = some (outputs, last) ∧
          RateLaw fast slow earlier.flatten outputs last.toGathering) ↔
      NoOverflow fast slow blocks.flatten := by
  constructor
  · intro law
    obtain ⟨outputs, last, ran, -⟩ := law blocks [] (List.append_nil _).symm
    exact noOverflow_of_resampleBlocks starts positive slower ran
  · rintro noOverflow earlier later rfl
    rw [List.flatten_append] at noOverflow
    obtain ⟨last, ran, carried⟩ :=
      resampleBlocks_fresh starts positive slower (noOverflow_of_append noOverflow)
    refine ⟨_, last, ran, ?_⟩
    rw [carried]
    exact rateLaw_outputsOf positive slower earlier.flatten

/-- The filter as it starts. -/
def initialResampler (fast slow : Nat) : Resampler where
  toGathering := fresh fast slow
  result := fun _ => 0
  resultLen := 0

/-- Five samples in two blocks, three outputs for each five. -/
theorem lowPassReal_rate_three_of_five :
    NoOverflow 5 3 [[(10 : Int16), 20, 30], [40, 50]].flatten ∧
      ∀ earlier later, [[10, 20, 30], [40, 50]] = earlier ++ later →
        ∃ outputs last,
          resampleBlocks (initialResampler 5 3) earlier = some (outputs, last) ∧
            RateLaw 5 3 earlier.flatten outputs last.toGathering := by
  have noOverflow : NoOverflow 5 3 [[(10 : Int16), 20, 30], [40, 50]].flatten := by
    unfold NoOverflow
    decide
  exact
    ⟨noOverflow,
      (lowPassReal_rate_iff (s := initialResampler 5 3) rfl (by decide) (by decide)
        [[10, 20, 30], [40, 50]]).mpr noOverflow⟩

/-- With rates that the options take, the index overflows at the second sample. -/
theorem lowPassReal_index_overflows :
    ¬ ∀ earlier later, [[0, 0]] = earlier ++ later →
      ∃ outputs last,
        resampleBlocks (initialResampler 2147483647 2147483646) earlier =
            some (outputs, last) ∧
          RateLaw 2147483647 2147483646 earlier.flatten outputs
            last.toGathering := by
  intro law
  obtain ⟨outputs, last, ran, -⟩ := law [[0, 0]] [] rfl
  have undefined :
      (resampleBlocks (initialResampler 2147483647 2147483646) [[0, 0]]).isNone := by
    decide
  rw [ran] at undefined
  cases undefined

end LibRtlSdr.RtlFm
