import LibRtlSdr.RtlFmFullDemod
import LibRtlSdr.RtlFmHeadroom
import LibRtlSdr.RtlFmMixer
import LibRtlSdr.SeamlessStages

namespace LibRtlSdr.RtlFm

/-!
# The audio of a capture

Without half-band passes, squelch, output oversampling and DC block, every stage of
`full_demod` goes on behind a block where it stopped.  The audio of the blocks is then
what the stages make of the capture as one stream.
-/

open BoundedBuffer (window blit)
open ConsecutivePairs (pairs)
open SeamlessStages (Stage Seamless scan scanning translating passing andThen)

/-! ## The audio of a stream -/

/-- The options of `full_demod`, which stay as they are. -/
structure Options where
  downsamplePasses : Nat
  squelchLevel : Int
  postDownsample : Nat
  dcBlock : Bool
  downsample : Nat
  customAtan : CustomAtan
  modeDemod : ModeDemod
  outputScale : Int
  deemph : Bool
  deemphA : Int
  rateOut : Int
  rateOut2 : Int

/-- The options of a state. -/
def FullDemod.options (d : FullDemod) : Options where
  downsamplePasses := d.downsamplePasses
  squelchLevel := d.squelchLevel
  postDownsample := d.postDownsample
  dcBlock := d.dcBlock
  downsample := d.downsample
  customAtan := d.customAtan
  modeDemod := d.modeDemod
  outputScale := d.outputScale
  deemph := d.deemph
  deemphA := d.deemphA
  rateOut := d.rateOut
  rateOut2 := d.rateOut2

/-- No stage treats the ends of a block in a way of its own. -/
structure Options.Continuous (o : Options) : Prop where
  passes : o.downsamplePasses = 0
  squelch : o.squelchLevel = 0
  shortened : o.postDownsample ≤ 1
  centred : o.dcBlock = false
  downsample : 0 < o.downsample
  method : o.modeDemod = .fm → o.customAtan = .std
  emphasis : o.deemph = true → 1 ≤ o.deemphA ∧ CheckedInt.Fits o.deemphA

/-- A sum as it is stored. -/
def wordPair (sum : Int × Int) : Int16 × Int16 :=
  (Int16.ofInt sum.1, Int16.ofInt sum.2)

/-- A sample and the one before it are demodulated, and the sample is remembered. -/
def demodulatedNext
    (f : FloatParts)
    (before sample : Int16 × Int16) :
    Int16 × (Int16 × Int16) :=
  (pcmOf f.polarDiscriminant (sample, before), sample)

/-- The average moves to a sample. -/
def deemphasizedNext (deemphA avg : Int) (sample : Int16) : Int16 × Int :=
  (Int16.ofInt (deemphasized deemphA avg sample.toInt),
    deemphasized deemphA avg sample.toInt)

/-- What a mode without a memory makes of a sample. -/
def sampled
    (pcm : Int → Int → Option Int16)
    (sample : Int16 × Int16) :
    Option Int16 :=
  pcm sample.1.toInt sample.2.toInt

/-- What the selected mode makes of all samples. -/
def demodulatedOf
    (f : FloatParts)
    (o : Options)
    (lowered : List (Int16 × Int16)) :
    Option (List Int16) :=
  match o.modeDemod with
  | .fm => some ((pairs (0, 0) lowered).map (pcmOf f.polarDiscriminant))
  | .raw => some (interleave lowered)
  | .am => lowered.mapM (sampled (amSample o.outputScale))
  | .usb => lowered.mapM (sampled (usbSample o.outputScale))
  | .lsb => lowered.mapM (sampled (lsbSample o.outputScale))

/-- What is made of all that is demodulated. -/
def finishedOf (o : Options) (demodulated : List Int16) : Option (List Int16) :=
  let smoothed :=
    if o.modeDemod ≠ .raw ∧ o.deemph = true then
      (scan (deemphasizedNext o.deemphA) 0 demodulated).1
    else
      demodulated
  if o.modeDemod ≠ .raw ∧ 0 < o.rateOut2 then
    (feed? ⟨o.rateOut, o.rateOut2, 0, 0⟩ smoothed).map Prod.fst
  else
    some smoothed

/-- The audio of a whole stream of samples. -/
def audioOf (f : FloatParts) (o : Options) (samples : List (Int × Int)) :
    Option (List Int16) :=
  (demodulatedOf f o ((groupSums o.downsample samples).map wordPair)).bind (finishedOf o)

/-! ## Stages -/

/-- The square window. -/
def groupStage (o : Options) :
    Stage (StreamingGroups.Carried (Int × Int)) (Int × Int) (Int16 × Int16) :=
  fun carried samples =>
    some ((StreamingGroups.feed o.downsample carried samples).1.map wordPair,
      (StreamingGroups.feed o.downsample carried samples).2)

/-- The selected mode. -/
def modeStage (f : FloatParts) (o : Options) :
    Stage (Int16 × Int16) (Int16 × Int16) Int16 :=
  match o.modeDemod with
  | .fm => scanning (demodulatedNext f)
  | .raw => fun before samples => some (interleave samples, before)
  | .am => translating (sampled (amSample o.outputScale))
  | .usb => translating (sampled (usbSample o.outputScale))
  | .lsb => translating (sampled (lsbSample o.outputScale))

/-- The de-emphasis, if it is asked for. -/
def emphasisStage (o : Options) : Stage Int Int16 Int16 :=
  if o.modeDemod ≠ .raw ∧ o.deemph = true then
    scanning (deemphasizedNext o.deemphA)
  else
    passing

/-- The output rate, if there is one. -/
def rateStage (o : Options) : Stage Gathering Int16 Int16 :=
  if o.modeDemod ≠ .raw ∧ 0 < o.rateOut2 then feed? else passing

/-- What the stages remember. -/
abbrev Memory : Type :=
  StreamingGroups.Carried (Int × Int) × (Int16 × Int16) × Int × Gathering

/-- All stages. -/
def audioStage (f : FloatParts) (o : Options) : Stage Memory (Int × Int) Int16 :=
  andThen (groupStage o) (andThen (modeStage f o) (andThen (emphasisStage o) (rateStage o)))

theorem groupStage_seamless
    (o : Options) :
    Seamless (groupStage o) where
  empty := fun _ => rfl
  append := by
    intro carried first second
    unfold groupStage
    rw [StreamingGroups.feed_append, List.map_append]
    rfl

theorem modeStage_seamless
    (f : FloatParts)
    (o : Options) :
    Seamless (modeStage f o) := by
  unfold modeStage
  cases o.modeDemod with
  | fm =>
      exact SeamlessStages.scanning_seamless _
  | raw =>
      constructor
      · intro before
        rfl
      · intro before first second
        simp [interleave, SeamlessStages.behind]
  | am =>
      exact SeamlessStages.translating_seamless _
  | usb =>
      exact SeamlessStages.translating_seamless _
  | lsb =>
      exact SeamlessStages.translating_seamless _

theorem emphasisStage_seamless
    (o : Options) :
    Seamless (emphasisStage o) := by
  unfold emphasisStage
  split
  · exact SeamlessStages.scanning_seamless _
  · exact SeamlessStages.passing_seamless

theorem rateStage_seamless
    (o : Options) :
    Seamless (rateStage o) := by
  unfold rateStage
  split
  · exact ⟨fun _ => rfl, feed?_append⟩
  · exact SeamlessStages.passing_seamless

theorem audioStage_seamless
    (f : FloatParts)
    (o : Options) :
    Seamless (audioStage f o) :=
  (groupStage_seamless o).andThen
    ((modeStage_seamless f o).andThen
      ((emphasisStage_seamless o).andThen (rateStage_seamless o)))

/-- What the stages remember at the start. -/
def Options.memory (o : Options) : Memory :=
  (.empty, (0, 0), 0, ⟨o.rateOut, o.rateOut2, 0, 0⟩)

theorem scan_demodulatedNext
    (f : FloatParts)
    (before : Int16 × Int16)
    (samples : List (Int16 × Int16)) :
    scan (demodulatedNext f) before samples =
      ((pairs before samples).map (pcmOf f.polarDiscriminant), samples.getLastD before) := by
  induction samples generalizing before with
  | nil =>
      rfl
  | cons sample rest inductionHypothesis =>
      rw [scan, demodulatedNext, inductionHypothesis, List.getLastD_cons]
      rfl

theorem modeStage_start
    (f : FloatParts)
    (o : Options)
    (lowered : List (Int16 × Int16)) :
    (modeStage f o (0, 0) lowered).map Prod.fst = demodulatedOf f o lowered := by
  unfold modeStage demodulatedOf
  cases o.modeDemod with
  | fm =>
      simp only [scanning, scan_demodulatedNext, Option.map_some]
  | raw =>
      rfl
  | am | usb | lsb =>
      simp [translating, Function.comp_def]

theorem finishing_start
    (o : Options)
    (demodulated : List Int16) :
    (andThen (emphasisStage o) (rateStage o) (0, ⟨o.rateOut, o.rateOut2, 0, 0⟩)
        demodulated).map Prod.fst =
      finishedOf o demodulated := by
  have smoothed :
      ∃ avg,
        emphasisStage o 0 demodulated =
          some (if o.modeDemod ≠ .raw ∧ o.deemph = true then
            (scan (deemphasizedNext o.deemphA) 0 demodulated).1
          else
            demodulated, avg) := by
    unfold emphasisStage
    split
    · exact ⟨_, rfl⟩
    · exact ⟨_, rfl⟩
  obtain ⟨avg, smoothed⟩ := smoothed
  unfold andThen finishedOf rateStage
  simp only [smoothed, Option.bind_some, Option.map_map]
  split
  · rfl
  · rfl

/-- From the start, the stages make the audio of a stream. -/
theorem audioStage_memory
    (f : FloatParts)
    (o : Options)
    (positive : 0 < o.downsample)
    (samples : List (Int × Int)) :
    (audioStage f o o.memory samples).map Prod.fst = audioOf f o samples := by
  have lowered :
      groupStage o .empty samples =
        some ((groupSums o.downsample samples).map wordPair,
          (StreamingGroups.feed o.downsample .empty samples).2) := by
    unfold groupStage groupSums
    rw [StreamingGroups.feed_empty positive]
  have finishing := finishing_start o
  have demodulating := modeStage_start f o ((groupSums o.downsample samples).map wordPair)
  unfold audioOf
  rw [← demodulating, audioStage, andThen, Options.memory, lowered, Option.bind_some,
    Option.map_map, andThen]
  cases modeStage f o (0, 0) ((groupSums o.downsample samples).map wordPair) with
  | none =>
      rfl
  | some made =>
      simp only [Option.bind_some, Option.map_some, ← finishing, Option.map_map]
      rfl

/-! ## A block -/

/-- A block through `rtlsdr_callback` and `full_demod`, and the audio that it leaves. -/
def audioBlock
    (f : FloatParts)
    (machine : DongleState × FullDemod)
    (block : Block) :
    Option (List Int16 × (DongleState × FullDemod)) :=
  let received := machine.2.receive machine.1 block
  (received.2.fullDemod f).map
    (fun done => (window done.result 0 done.resultLen, (received.1, done)))

/-- What `low_pass_real` carries. -/
def FullDemod.gathering (d : FullDemod) : Gathering where
  rateOut := d.rateOut
  rateOut2 := d.rateOut2
  nowLpr := d.nowLpr
  prevLprIndex := d.prevLprIndex

section Stages

variable {d : FullDemod}

/-- The square window stores the sums that a block completes. -/
theorem lowPass_window
    (even : d.lpLen % 2 = 0) :
    window d.lowPass.lowpassed 0 d.lowPass.lpLen =
        interleave
          ((StreamingGroups.feed d.downsample d.filter.carried
            (unread d.lowpassed 0 (d.lpLen / 2))).1.map wordPair) ∧
      d.lowPass.filter.carried =
        (StreamingGroups.feed d.downsample d.filter.carried
          (unread d.lowpassed 0 (d.lpLen / 2))).2 := by
  have filtered := @lowPass_filtered d.filter even
  constructor
  · have outputs := filtered.outputs
    rw [show window d.filter.lowpassed 0 0 = [] from rfl, List.nil_append] at outputs
    unfold interleave
    rw [List.flatMap_map]
    exact outputs
  · exact filtered.carried

/-- Samples that stand in front of `lowpassed`. -/
def FullDemod.Reads (d : FullDemod) (samples : List (Int16 × Int16)) : Prop :=
  window d.lowpassed 0 d.lpLen = interleave samples

theorem FullDemod.Reads.length
    {samples : List (Int16 × Int16)}
    (reads : d.Reads samples) :
    d.lpLen = 2 * samples.length := by
  have lengths := congrArg List.length reads
  rw [BoundedBuffer.length_window] at lengths
  rw [lengths]
  simp [interleave, Nat.mul_comm]

/-- `fm_demod` by the method that handles the first sample. -/
theorem fmDemod_reads
    (f : FloatParts)
    {samples : List (Int16 × Int16)}
    (reads : d.Reads samples)
    (nonempty : samples ≠ [])
    (std : d.customAtan = .std)
    {before : Int16 × Int16}
    (remembers : Remembers d.demodulator before) :
    ∃ done,
      d.fmDemod f = some done ∧
        window done.result 0 done.resultLen = (scan (demodulatedNext f) before samples).1 ∧
        Remembers done.demodulator (scan (demodulatedNext f) before samples).2 ∧
        done =
          { d with
            result := done.result
            resultLen := done.resultLen
            preR := done.preR
            preJ := done.preJ } := by
  have length := reads.length
  have some : d.lpLen ≠ 0 := by
    have positive := List.length_pos_iff.mpr nonempty
    omega
  have loaded : d.demodulator.load samples = d.demodulator := by
    unfold Demodulator.load
    rw [← reads, ← length]
    change { d.demodulator with
      lowpassed := blit 0 (window d.lowpassed 0 d.lpLen) d.lowpassed } = _
    rw [BoundedBuffer.blit_window]
    rfl
  obtain ⟨outputs, next, -⟩ :=
    demodBlock_outputs f.toDiscriminators remembers nonempty
  have method :
      f.toDiscriminators.selected d.demodulator.customAtan = f.polarDiscriminant := by
    change f.toDiscriminators.selected d.customAtan = _
    rw [std]
    rfl
  rw [method, (ConsecutivePairs.blockOutputs_eq_iff _ _ _ _).mpr (fun _ _ => rfl)] at outputs
  unfold demodBlock at outputs next
  rw [loaded] at outputs next
  rw [scan_demodulatedNext]
  unfold FullDemod.fmDemod
  rw [if_neg some]
  exact ⟨_, rfl, outputs, ⟨next.preR, next.preJ⟩, rfl⟩

theorem length_of_mapM
    {Value Made : Type}
    {make : Value → Option Made}
    {values : List Value}
    {made : List Made}
    (done : values.mapM make = some made) :
    made.length = values.length := by
  induction values generalizing made with
  | nil =>
      cases done
      rfl
  | cons value rest inductionHypothesis =>
      simp only [List.mapM_cons, Option.bind_eq_bind, Option.bind_eq_some_iff,
        Option.pure_def, Option.some.injEq] at done
      obtain ⟨first, -, later, making, rfl⟩ := done
      rw [List.length_cons, inductionHypothesis making, List.length_cons]

/-- Values that are stored one after the other. -/
theorem foldlM_store
    (value : Nat → Option Int16)
    (count : Nat)
    (memory : Nat → Int16) :
    (List.range count).foldlM
        (fun result turn => do
          let stored ← value turn
          return Function.update result turn stored)
        memory =
      ((List.range count).mapM value).map (fun values => blit 0 values memory) := by
  induction count with
  | zero =>
      simp
  | succ count inductionHypothesis =>
      rw [List.range_succ, List.foldlM_append, inductionHypothesis, List.mapM_append]
      cases known : (List.range count).mapM value with
      | none =>
          rfl
      | some values =>
          have length : values.length = count := by
            rw [length_of_mapM known, List.length_range]
          cases last : value count with
          | none =>
              simp [last]
          | some stored =>
              simp only [Option.map_some, Option.bind_eq_bind, Option.bind_some,
                List.foldlM_cons, List.foldlM_nil, List.mapM_cons, List.mapM_nil, last,
                Option.pure_def, Option.some.injEq]
              rw [← BoundedBuffer.blit_singleton]
              funext place
              unfold blit
              rcases Nat.lt_trichotomy place count with below | rfl | above
              · rw [if_neg (by omega), if_pos (by omega), if_pos (by omega),
                  List.getElem?_append_left (by omega)]
              · rw [if_pos (Nat.le_refl _), if_pos (Nat.zero_le _), Nat.sub_zero,
                  List.getElem?_append_right (by omega), length, Nat.sub_self]
                rfl
              · rw [if_pos (by omega), if_pos (by omega), if_pos (by omega),
                  List.getElem?_eq_none (by simp; omega),
                  List.getElem?_eq_none (by omega),
                  List.getElem?_eq_none (by simp; omega)]
                rfl

/-- `am_demod`, `usb_demod` or `lsb_demod` on samples. -/
theorem demodSamples_reads
    (pcm : Int → Int → Option Int16)
    {samples : List (Int16 × Int16)}
    (reads : d.Reads samples) :
    d.demodSamples pcm =
      (samples.mapM (sampled pcm)).map (fun values =>
        { d with result := blit 0 values d.result, resultLen := samples.length }) := by
  have length := reads.length
  have numbered :
      samples =
        (List.range samples.length).map
          (fun turn => (d.lowpassed (2 * turn), d.lowpassed (2 * turn + 1))) := by
    have pairs := iqPairs_window d.lowpassed 0 samples.length
    unfold FullDemod.Reads at reads
    rw [← length, reads, iqPairs_interleave] at pairs
    simpa [Nat.add_comm] using pairs
  have turns : (d.lpLen + 1) / 2 = samples.length := by omega
  have half : d.lpLen / 2 = samples.length := by omega
  have each :
      samples.mapM (sampled pcm) =
        (List.range samples.length).mapM (fun turn =>
          pcm (d.lowpassed (2 * turn)).toInt (d.lowpassed (2 * turn + 1)).toInt) := by
    conv_lhs => rw [numbered]
    rw [List.mapM_map]
    rfl
  unfold FullDemod.demodSamples
  rw [turns, half, each, foldlM_store, Option.bind_eq_bind, Option.map_eq_bind,
    Option.map_eq_bind, Option.bind_assoc]
  rfl

/-- What a demodulation leaves as it was. -/
def FullDemod.Demodulated (d done : FullDemod) : Prop :=
  done =
    { d with
      result := done.result
      resultLen := done.resultLen
      preR := done.preR
      preJ := done.preJ }

/-- The selected mode makes of samples what its stage makes of them. -/
theorem demodulate_carries
    (f : FloatParts)
    (continuous : d.options.Continuous)
    {samples : List (Int16 × Int16)}
    (reads : d.Reads samples)
    (nonempty : d.modeDemod = .fm → samples ≠ [])
    {before : Int16 × Int16}
    (remembers : Remembers d.demodulator before) :
    Option.Rel
      (fun done made =>
        window done.result 0 done.resultLen = made.1 ∧
          Remembers done.demodulator made.2 ∧ d.Demodulated done)
      (d.demodulate f) (modeStage f d.options before samples) := by
  have mode : d.options.modeDemod = d.modeDemod := rfl
  have sampling :
      ∀ pcm,
        Option.Rel
          (fun done made =>
            window done.result 0 done.resultLen = made.1 ∧
              Remembers done.demodulator made.2 ∧ d.Demodulated done)
          (d.demodSamples pcm) (translating (sampled pcm) before samples) := by
    intro pcm
    rw [demodSamples_reads pcm reads, translating]
    cases known : samples.mapM (sampled pcm) with
    | none =>
        exact .none
    | some values =>
        refine .some ⟨?_, ⟨remembers.preR, remembers.preJ⟩, rfl⟩
        rw [← length_of_mapM known]
        exact BoundedBuffer.window_blit_self 0 values d.result
  unfold FullDemod.demodulate modeStage
  rw [mode]
  cases known : d.modeDemod with
  | fm =>
      obtain ⟨done, demodulated, outputs, next, same⟩ :=
        fmDemod_reads f reads (nonempty known) (continuous.method known) remembers
      rw [demodulated]
      exact .some ⟨outputs, next, same⟩
  | raw =>
      refine .some ⟨?_, ⟨remembers.preR, remembers.preJ⟩, rfl⟩
      have copied :=
        BoundedBuffer.window_blit_self 0 (window d.lowpassed 0 d.lpLen) d.result
      rw [BoundedBuffer.length_window] at copied
      exact copied.trans reads
  | am =>
      exact sampling _
  | usb =>
      exact sampling _
  | lsb =>
      exact sampling _

/-- What the turns of `deemph_filter` have made of the samples in front. -/
structure Scanned (start : Deemphasis) (count : Nat) (fm : Deemphasis) : Prop where
  stored :
    window fm.result 0 count =
      (scan (deemphasizedNext start.deemphA) start.avg (window start.result 0 count)).1
  avg :
    fm.avg =
      (scan (deemphasizedNext start.deemphA) start.avg (window start.result 0 count)).2
  unread : ∀ place, count ≤ place → fm.result place = start.result place
  deemphA : fm.deemphA = start.deemphA
  small : Fits fm.avg

theorem deemphTurns_scanned
    {start : Deemphasis}
    (positive : 1 ≤ start.deemphA)
    (divisor : CheckedInt.Fits start.deemphA)
    (small : Fits start.avg)
    (count : Nat) :
    ∃ fm, (List.range count).foldlM deemphTurn start = some fm ∧ Scanned start count fm := by
  induction count with
  | zero =>
      exact ⟨start, rfl, rfl, rfl, fun _ _ => rfl, rfl, small⟩
  | succ count inductionHypothesis =>
      obtain ⟨fm, ran, scanned⟩ := inductionHypothesis
      have turn :=
        @deemphTurn_eq_some fm (by rw [scanned.deemphA]; exact positive)
          (by rw [scanned.deemphA]; exact divisor) scanned.small count
      have read := scanned.unread count (Nat.le_refl count)
      have more :
          scan (deemphasizedNext start.deemphA) start.avg
              (window start.result 0 (count + 1)) =
            ((scan (deemphasizedNext start.deemphA) start.avg
                (window start.result 0 count)).1 ++
              [(deemphasizedNext start.deemphA fm.avg (start.result count)).1],
              (deemphasizedNext start.deemphA fm.avg (start.result count)).2) := by
        rw [BoundedBuffer.window_add, SeamlessStages.scan_append, ← scanned.avg,
          Nat.zero_add]
        rfl
      refine ⟨fm.turned count, ?_, ?_, ?_, ?_, scanned.deemphA, ?_⟩
      · rw [List.range_succ, List.foldlM_append, ran, Option.bind_eq_bind,
          Option.bind_some, List.foldlM_cons, turn]
        rfl
      · have front :
          window (fm.turned count).result 0 count = window fm.result 0 count := by
          apply BoundedBuffer.window_congr
          intro place _ below
          exact Function.update_of_ne (by omega) _ _
        rw [more, BoundedBuffer.window_add, front, scanned.stored, Nat.zero_add]
        congr 1
        change [Function.update fm.result count _ count] = _
        rw [Function.update_self, scanned.deemphA, read]
        rfl
      · rw [more]
        change deemphasized fm.deemphA fm.avg (fm.result count).toInt = _
        rw [scanned.deemphA, read]
        rfl
      · intro place beyond
        change Function.update fm.result count _ place = _
        rw [Function.update_of_ne (by omega)]
        exact scanned.unread place (by omega)
      · exact deemphasized_fits (by rw [scanned.deemphA]; exact positive) scanned.small _

/-- `deemph_filter` on all of the state. -/
theorem deemphFilter_scanned
    (positive : 1 ≤ d.deemphA)
    (divisor : CheckedInt.Fits d.deemphA)
    (small : Fits d.avg) :
    ∃ done,
      d.deemphFilter = some done ∧
        window done.result 0 done.resultLen =
          (scan (deemphasizedNext d.deemphA) d.avg (window d.result 0 d.resultLen)).1 ∧
        done.avg =
          (scan (deemphasizedNext d.deemphA) d.avg (window d.result 0 d.resultLen)).2 ∧
        Fits done.avg ∧
        done = { d with result := done.result, avg := done.avg } := by
  obtain ⟨fm, ran, scanned⟩ :=
    @deemphTurns_scanned ⟨d.result, d.resultLen, d.deemphA, d.avg, []⟩ positive divisor
      small d.resultLen
  refine ⟨{ d with result := fm.result, avg := fm.avg }, ?_, scanned.stored, scanned.avg,
    scanned.small, rfl⟩
  unfold FullDemod.deemphFilter RtlFm.deemphFilter
  rw [ran]
  rfl

/-- `low_pass_real` on all of the state. -/
theorem lowPassReal_feed
    (positive : 0 < d.rateOut2) :
    Option.Rel
      (fun done made =>
        window done.result 0 done.resultLen = made.1 ∧ done.gathering = made.2 ∧
          done =
            { d with
              result := done.result
              resultLen := done.resultLen
              nowLpr := done.nowLpr
              prevLprIndex := done.prevLprIndex })
      d.lowPassReal (feed? d.gathering (window d.result 0 d.resultLen)) := by
  have fed :=
    @resampleBlock_feed ⟨d.gathering, d.result, d.resultLen⟩ positive
      (window d.result 0 d.resultLen)
  have loaded :
      resampleBlock ⟨d.gathering, d.result, d.resultLen⟩ (window d.result 0 d.resultLen) =
        RtlFm.lowPassReal ⟨d.gathering, d.result, d.resultLen⟩ := by
    have whole := BoundedBuffer.blit_window 0 d.resultLen d.result
    unfold resampleBlock
    simp only [whole, BoundedBuffer.length_window]
    exact if_pos positive
  rw [loaded] at fed
  have rates := fun made known => @rates_feed? d.gathering (window d.result 0 d.resultLen) made known
  rw [← fed] at rates ⊢
  unfold FullDemod.lowPassReal
  change Option.Rel _
    ((RtlFm.lowPassReal ⟨d.gathering, d.result, d.resultLen⟩).bind _) _
  cases known : RtlFm.lowPassReal ⟨d.gathering, d.result, d.resultLen⟩ with
  | none =>
      exact .none
  | some done =>
      obtain ⟨rateOut, rateOut2⟩ := rates _ (by rw [known]; rfl)
      refine .some ⟨rfl, ?_, rfl⟩
      unfold FullDemod.gathering
      simp only
      rw [show d.rateOut = done.rateOut from rateOut.symm,
        show d.rateOut2 = done.rateOut2 from rateOut2.symm]

/-- The stages that are left behind the demodulation. -/
theorem audio_continuous
    (continuous : d.options.Continuous) :
    d.audio =
      (if d.deemph then d.deemphFilter else some d).bind (fun smooth =>
        if 0 < d.rateOut2 then smooth.lowPassReal else some smooth) := by
  have unshortened : ¬ 1 < d.postDownsample := Nat.not_lt.mpr continuous.shortened
  have uncentred : d.dcBlock = false := continuous.centred
  unfold FullDemod.audio
  rw [if_neg unshortened, uncentred]
  cases d.deemph <;> rfl

/-- The de-emphasis makes what its stage makes. -/
theorem emphasis_carries
    (continuous : d.options.Continuous)
    (audio : d.modeDemod ≠ .raw)
    (small : Fits d.avg) :
    ∃ smooth,
      (if d.deemph then d.deemphFilter else some d) = some smooth ∧
        emphasisStage d.options d.avg (window d.result 0 d.resultLen) =
          some (window smooth.result 0 smooth.resultLen, smooth.avg) ∧
        Fits smooth.avg ∧ smooth = { d with result := smooth.result, avg := smooth.avg } := by
  unfold emphasisStage
  by_cases asked : d.deemph = true
  · obtain ⟨positive, divisor⟩ := continuous.emphasis asked
    obtain ⟨done, ran, stored, avg, fits, same⟩ :=
      deemphFilter_scanned positive divisor small
    refine ⟨done, by rw [if_pos asked, ran], ?_, fits, same⟩
    rw [if_pos ⟨audio, asked⟩, stored, avg]
    rfl
  · refine ⟨d, by rw [if_neg asked], ?_, small, rfl⟩
    rw [if_neg (fun both => asked both.2)]
    rfl

/-- What the stages behind the demodulation leave as it was. -/
def FullDemod.Finished (d done : FullDemod) : Prop :=
  done =
    { d with
      result := done.result
      resultLen := done.resultLen
      avg := done.avg
      nowLpr := done.nowLpr
      prevLprIndex := done.prevLprIndex }

/-- The stages behind the demodulation make what their stages make. -/
theorem finish_carries
    (continuous : d.options.Continuous)
    (small : Fits d.avg) :
    Option.Rel
      (fun done made =>
        window done.result 0 done.resultLen = made.1 ∧
          (done.avg = made.2.1 ∧ Fits done.avg) ∧ done.gathering = made.2.2 ∧
          d.Finished done)
      (if d.modeDemod = .raw then some d else d.audio)
      (andThen (emphasisStage d.options) (rateStage d.options) (d.avg, d.gathering)
        (window d.result 0 d.resultLen)) := by
  have mode : d.options.modeDemod = d.modeDemod := rfl
  by_cases raw : d.modeDemod = .raw
  · have emphasis : emphasisStage d.options = passing := by
      unfold emphasisStage
      rw [if_neg (by rw [mode]; exact fun both => both.1 raw)]
    have rate : rateStage d.options = passing := by
      unfold rateStage
      rw [if_neg (by rw [mode]; exact fun both => both.1 raw)]
    rw [if_pos raw, emphasis, rate]
    exact .some ⟨rfl, ⟨rfl, small⟩, rfl, rfl⟩
  · obtain ⟨smooth, smoothing, stage, fits, same⟩ := emphasis_carries continuous raw small
    have gathering : smooth.gathering = d.gathering := by rw [same]; rfl
    have rateOut2 : smooth.rateOut2 = d.rateOut2 := by rw [same]
    rw [if_neg raw, audio_continuous continuous, smoothing, Option.bind_some]
    unfold andThen rateStage
    rw [stage, Option.bind_some]
    by_cases resampled : 0 < d.rateOut2
    · have fed := @lowPassReal_feed smooth (by rw [rateOut2]; exact resampled)
      rw [gathering] at fed
      rw [if_pos resampled, if_pos ⟨raw, resampled⟩, ← @Option.map_id' _ smooth.lowPassReal]
      apply SeamlessStages.rel_map fed
      rintro done made ⟨outputs, carried, only⟩
      refine ⟨outputs, ?_, carried, ?_⟩
      · have avg : done.avg = smooth.avg := by rw [only]
        exact ⟨avg, by rw [avg]; exact fits⟩
      · unfold FullDemod.Finished
        rw [only, same]
    · rw [if_neg resampled, if_neg (fun both => resampled both.2)]
      refine .some ⟨rfl, ⟨rfl, fits⟩, gathering, ?_⟩
      unfold FullDemod.Finished
      rw [same]

end Stages

/-! ## Blocks -/

/-- The state holds what the stages remember. -/
structure FullDemod.Holds (d : FullDemod) (memory : Memory) : Prop where
  carried : d.filter.carried = memory.1
  before : Remembers d.demodulator memory.2.1
  avg : d.avg = memory.2.2.1
  small : Fits d.avg
  gathering : d.gathering = memory.2.2.2

/-- Without passes and squelch only the square window comes before the demodulation. -/
theorem lowered_continuous
    (f : FloatParts)
    {d : FullDemod}
    (continuous : d.options.Continuous) :
    d.lowered f = d.lowPass := by
  have passes : d.downsamplePasses = 0 := continuous.passes
  have squelch : d.squelchLevel = 0 := continuous.squelch
  unfold FullDemod.lowered
  rw [if_neg (not_not.mpr passes)]
  exact if_pos squelch

theorem length_iqPairs
    {Value : Type}
    (values : List Value) :
    (iqPairs values).length = values.length / 2 := by
  induction values using iqPairs.induct with
  | case1 one two rest inductionHypothesis =>
      rw [iqPairs, List.length_cons, inductionHypothesis, List.length_cons, List.length_cons]
      omega
  | case2 values short =>
      rcases values with _ | ⟨one, _ | ⟨two, rest⟩⟩
      · simp [iqPairs]
      · simp [iqPairs]
      · exact absurd rfl (short one two rest)

theorem length_unread
    (lowpassed : Nat → Int16)
    (count : Nat) :
    (unread lowpassed 0 count).length = count := by
  rw [unread, length_iqPairs, List.length_map, BoundedBuffer.length_window]
  omega

/-- The stages behind the square window. -/
theorem audioStage_eq
    (f : FloatParts)
    (o : Options)
    (groups : StreamingGroups.Carried (Int × Int))
    (before : Int16 × Int16)
    (avg : Int)
    (gathering : Gathering)
    (samples : List (Int × Int)) :
    audioStage f o (groups, before, avg, gathering) samples =
      (modeStage f o before
        ((StreamingGroups.feed o.downsample groups samples).1.map wordPair)).bind
          (fun made =>
            (andThen (emphasisStage o) (rateStage o) (avg, gathering) made.1).map
              (fun last =>
                (last.1, ((StreamingGroups.feed o.downsample groups samples).2, made.2,
                  last.2)))) := by
  unfold audioStage
  rw [andThen, groupStage, Option.bind_some, andThen, Option.map_bind]
  congr 1
  funext made
  rw [Function.comp_apply, Option.map_map]
  rfl

/-- A block does to the state what its samples do to the stages. -/
theorem fullDemod_carries
    (f : FloatParts)
    {d : FullDemod}
    (continuous : d.options.Continuous)
    (even : d.lpLen % 2 = 0)
    (enough : d.modeDemod = .fm → 2 * d.downsample ≤ d.lpLen)
    {memory : Memory}
    (holds : d.Holds memory) :
    Option.Rel
      (fun done made =>
        window done.result 0 done.resultLen = made.1 ∧
          done.Holds made.2 ∧ done.options = d.options)
      (d.fullDemod f)
      (audioStage f d.options memory (unread d.lowpassed 0 (d.lpLen / 2))) := by
  obtain ⟨groups, before, avg, gathering⟩ := memory
  obtain ⟨rfl, remembers, rfl, small, rfl⟩ := holds
  obtain ⟨reads, carried⟩ := @lowPass_window d even
  have nonempty :
      d.lowPass.modeDemod = .fm →
        (StreamingGroups.feed d.downsample d.filter.carried
          (unread d.lowpassed 0 (d.lpLen / 2))).1.map wordPair ≠ [] := by
    intro fm
    have most := enough fm
    have positive : 0 < d.downsample := continuous.downsample
    have length := length_unread d.lowpassed (d.lpLen / 2)
    rw [ne_eq, List.map_eq_nil_iff]
    apply StreamingGroups.feed_ne_nil
    · omega
    · intro ended
      rw [ended, List.length_nil] at length
      omega
  have demodulating :=
    @demodulate_carries d.lowPass f continuous _ reads nonempty before
      ⟨remembers.preR, remembers.preJ⟩
  unfold FullDemod.fullDemod
  rw [lowered_continuous f continuous, audioStage_eq]
  apply SeamlessStages.rel_bind demodulating
  rintro done made ⟨outputs, next, only⟩
  have options : done.options = d.options := by rw [only]; rfl
  have finishing :=
    @finish_carries done (by rw [options]; exact continuous) (by rw [only]; exact small)
  have mode : done.modeDemod = d.modeDemod := by rw [only]; rfl
  have avg : done.avg = d.avg := by rw [only]; rfl
  have gathering : done.gathering = d.gathering := by rw [only]; rfl
  rw [options, mode, avg, gathering, outputs] at finishing
  rw [← @Option.map_id' _ (ite _ _ _)]
  apply SeamlessStages.rel_map finishing
  rintro finished last ⟨audio, average, rates, only'⟩
  refine ⟨audio, ⟨?_, ?_, average.1, average.2, rates⟩, ?_⟩
  · rw [only', only]
    exact carried
  · rw [only']
    exact ⟨next.preR, next.preJ⟩
  · rw [← options, only']
    rfl

/-- The state holds what the stages remember, and the dongle goes on as it is. -/
structure Recalls
    (offsetTuning : Bool)
    (o : Options)
    (machine : DongleState × FullDemod)
    (memory : Memory) : Prop where
  dongle : machine.1 = ⟨offsetTuning, 0⟩
  options : machine.2.options = o
  holds : machine.2.Holds memory

/-- A block of whole samples, and one that leaves `fm_demod` a sample at least. -/
structure Admissible (o : Options) (block : Block) : Prop where
  even : block.len % 2 = 0
  enough : o.modeDemod = .fm → 2 * o.downsample ≤ block.len

/-- The samples of a block, as they are filtered. -/
def contents (offsetTuning : Bool) (block : Block) : List (Int × Int) :=
  samplesOf (window (preparedBuf ⟨offsetTuning, 0⟩ block) 0 block.len)

theorem audioBlock_carries
    (f : FloatParts)
    (offsetTuning : Bool)
    {o : Options}
    (continuous : o.Continuous) :
    SeamlessStages.Carries (Recalls offsetTuning o) (Admissible o) (contents offsetTuning)
      (audioBlock f) (audioStage f o) := by
  rintro ⟨s, d⟩ memory block ⟨rfl, rfl, holds⟩ admissible
  have received : (d.receive ⟨offsetTuning, 0⟩ block).2.Holds memory :=
    ⟨holds.carried, ⟨holds.before.preR, holds.before.preJ⟩, holds.avg, holds.small,
      holds.gathering⟩
  have carries :=
    @fullDemod_carries f (d.receive ⟨offsetTuning, 0⟩ block).2 continuous admissible.even
      admissible.enough memory received
  have samples :
      unread (d.receive ⟨offsetTuning, 0⟩ block).2.lowpassed 0
          ((d.receive ⟨offsetTuning, 0⟩ block).2.lpLen / 2) =
        contents offsetTuning block :=
    unread_rtlsdrCallback ⟨offsetTuning, 0⟩ d.filter admissible.even
  rw [samples] at carries
  unfold audioBlock SeamlessStages.Agree
  rw [← @Option.map_id' _ (audioStage _ _ _ _)]
  apply SeamlessStages.rel_map carries
  rintro done made ⟨outputs, next, options⟩
  exact ⟨outputs, rfl, options, next⟩

/-- The samples of a capture, as they are filtered. -/
def filtered (offsetTuning : Bool) (bytes : List UInt8) : List (Int × Int) :=
  if offsetTuning then samplesOf bytes else mixed (samplesOf bytes)

theorem flatMap_contents
    (offsetTuning : Bool)
    {blocks : List Block}
    (whole : ∀ block ∈ blocks, block.len % 8 = 0) :
    blocks.flatMap (contents offsetTuning) = filtered offsetTuning (captured blocks) := by
  have even : ∀ block ∈ blocks, block.len % 2 = 0 := by
    intro block member
    have eight := whole block member
    omega
  have stream :
      blocks.flatMap (contents offsetTuning) = runSamples ⟨offsetTuning, 0⟩ blocks := by
    unfold runSamples
    rw [samplesOf_flatten (length_preparedBytes _ even)]
    clear whole even
    induction blocks with
    | nil =>
        rfl
    | cons block rest inductionHypothesis =>
        rw [List.flatMap_cons, inductionHypothesis]
        rfl
  rw [stream]
  cases offsetTuning with
  | false =>
      exact runSamples_mixed whole
  | true =>
      unfold runSamples filtered captured
      congr 1
      clear stream whole even
      induction blocks with
      | nil =>
          rfl
      | cons block rest inductionHypothesis =>
          rw [preparedBytes, preparedBuf_of_offsetTuning, List.flatten_cons,
            List.flatMap_cons, inductionHypothesis]

/-- A state in which nothing is remembered. -/
structure FullDemod.Starts (d : FullDemod) : Prop where
  filter : Fresh d.filter
  before : Remembers d.demodulator (0, 0)
  avg : d.avg = 0
  gathering : d.nowLpr = 0 ∧ d.prevLprIndex = 0

theorem FullDemod.Starts.recalls
    {d : FullDemod}
    (starts : d.Starts)
    (offsetTuning : Bool) :
    Recalls offsetTuning d.options (⟨offsetTuning, 0⟩, d) d.options.memory := by
  refine ⟨rfl, rfl, starts.filter.carried, starts.before, starts.avg, ?_, ?_⟩
  · rw [starts.avg]
    exact ⟨by decide, by decide⟩
  · unfold FullDemod.gathering Options.memory
    rw [starts.gathering.1, starts.gathering.2]
    rfl

/-- The audio of the blocks is that of the capture as one stream. -/
theorem audioBlocks_stream
    (f : FloatParts)
    (offsetTuning : Bool)
    {d : FullDemod}
    (starts : d.Starts)
    (continuous : d.options.Continuous)
    {blocks : List Block}
    (whole : ∀ block ∈ blocks, block.len % 8 = 0)
    (enough : d.modeDemod = .fm → ∀ block ∈ blocks, 2 * d.downsample ≤ block.len) :
    (SeamlessStages.feedBlocks (audioBlock f) (⟨offsetTuning, 0⟩, d) blocks).map Prod.fst =
      audioOf f d.options (filtered offsetTuning (captured blocks)) := by
  have admissible : ∀ block ∈ blocks, Admissible d.options block := by
    intro block member
    have eight := whole block member
    exact ⟨by omega, fun fm => enough fm block member⟩
  have carried :=
    (audioBlock_carries f offsetTuning continuous).feedBlocks
      (audioStage_seamless f d.options)
      (starts.recalls offsetTuning) admissible
  rw [flatMap_contents offsetTuning whole] at carried
  rw [← audioStage_memory f d.options continuous.downsample]
  generalize SeamlessStages.feedBlocks (audioBlock f) (⟨offsetTuning, 0⟩, d) blocks = done
    at carried ⊢
  generalize audioStage f d.options d.options.memory _ = made at carried ⊢
  cases carried with
  | none =>
      rfl
  | some agree =>
      exact congrArg some agree.1

/-- The methods, without a squelch. -/
def quietParts : FloatParts where
  toDiscriminators := discriminators
  rms := fun _ => 0

end LibRtlSdr.RtlFm
