import LibRtlSdr.CheckedInt
import LibRtlSdr.RtlFmFifthOrder
import LibRtlSdr.RtlFmSettings
import Mathlib.Algebra.Order.BigOperators.Group.List

namespace LibRtlSdr.RtlFm

/-!
# The low-leakage path of `rtl_fm`: passes of `fifth_order`, then `generic_fir`

Each pass doubles the amplitude, and the compensation behind the last pass weighs nine
samples with coefficients whose magnitudes add up to more than four.  A pass may
begin with any number of samples: what it reads has been written by the pass before
it, down to the first sample of each channel, which is filtered even when no whole
sample is left.
-/

open BoundedBuffer (window blit)

/-! ## Source -/

/-- `cic_9_tables`. -/
def cic9Tables : List (List Int) :=
  [[0],
    [9, -156, -97, 2798, -15489, 61019, -15489, 2798, -97, -156],
    [9, -128, -568, 5593, -24125, 74126, -24125, 5593, -568, -128],
    [9, -129, -639, 6187, -26281, 77511, -26281, 6187, -639, -129],
    [9, -122, -612, 6082, -26353, 77818, -26353, 6082, -612, -122],
    [9, -120, -602, 6015, -26269, 77757, -26269, 6015, -602, -120],
    [9, -120, -582, 5951, -26128, 77542, -26128, 5951, -582, -120],
    [9, -119, -580, 5931, -26094, 77505, -26094, 5931, -580, -119],
    [9, -119, -578, 5921, -26077, 77484, -26077, 5921, -578, -119],
    [9, -119, -577, 5917, -26067, 77473, -26067, 5917, -577, -119],
    [9, -199, -362, 5303, -25505, 77489, -25505, 5303, -362, -199]]

/-- A coefficient of a row of the table. -/
def coefficient (fir : List Int) (k : Nat) : Int :=
  fir.getD k 0

/-- What `generic_fir` adds up, in this order. -/
def firTerms (fir : List Int) (hist : Nat → Int16) : List Int :=
  [((hist 0).toInt + (hist 8).toInt) * coefficient fir 1,
    ((hist 1).toInt + (hist 7).toInt) * coefficient fir 2,
    ((hist 2).toInt + (hist 6).toInt) * coefficient fir 3,
    ((hist 3).toInt + (hist 5).toInt) * coefficient fir 4,
    (hist 4).toInt * coefficient fir 5]

/-- The terms, and `sum` after each of them. -/
def firSums (terms : List Int) : List Int :=
  terms ++ (List.range (terms.length + 1)).map (fun n => (terms.take n).sum)

/-- The history moves on by one sample. -/
def shiftHist (hist : Nat → Int16) (temp : Int16) : Nat → Int16 :=
  fun k => if k < 8 then hist (k + 1) else temp

/--
The state of `generic_fir`, the values that were assigned to an `int16_t`, and those
of the `int` expressions.
-/
structure GenericFir where
  data : Nat → Int16
  hist : Nat → Int16
  assigned : List Int
  sums : List Int

/-- The turn of the loop of `generic_fir` at `d`. -/
def genericFirTurn (fir : List Int) (base : Nat) (s : GenericFir) (d : Nat) : GenericFir :=
  let temp := s.data (base + d)
  let terms := firTerms fir s.hist
  { data := Function.update s.data (base + d) (Int16.ofInt (terms.sum >>> (15 : Nat)))
    hist := shiftHist s.hist temp
    assigned := s.assigned ++ [terms.sum >>> (15 : Nat)]
    sums := s.sums ++ firSums terms }

/-- `generic_fir` on the data from `base` on; `d` is 0, 2, ... below `length`. -/
def genericFir
    (data : Nat → Int16)
    (base length : Nat)
    (fir : List Int)
    (hist : Nat → Int16) :
    GenericFir :=
  (List.range ((length + 1) / 2)).foldl
    (fun s turn => genericFirTurn fir base s (2 * turn)) ⟨data, hist, [], []⟩

/-- What `full_demod` uses of `struct demod_state` when there are passes. -/
structure Decimator extends PassState where
  downsamplePasses : Nat
  compFirSize : Int
  droopIHist : Nat → Int16
  droopQHist : Nat → Int16
  sums : List Int

/-- The loop over the passes. -/
def passes (count : Nat) (d : PassState) : PassState :=
  (List.range count).foldl passTurn d

/-- The droop compensation of `full_demod`. -/
def compensate (d : Decimator) : Decimator :=
  let fir := cic9Tables.getD d.downsamplePasses []
  let first := genericFir d.lowpassed 0 d.lpLen fir d.droopIHist
  let second := genericFir first.data 1 (d.lpLen - 1) fir d.droopQHist
  { d with
    lowpassed := second.data
    droopIHist := first.hist
    droopQHist := second.hist
    assigned := d.assigned ++ first.assigned ++ second.assigned
    sums := d.sums ++ first.sums ++ second.sums }

/-- The part of `full_demod` that lowers the rate, when `downsample_passes` is not 0. -/
def decimate (d : Decimator) : Decimator :=
  let passed := passes d.downsamplePasses d.toPassState
  let shortened :=
    { d with
      toPassState :=
        { passed with lpLen := passed.lpLen >>> d.downsamplePasses } }
  if d.compFirSize = 9 ∧ d.downsamplePasses ≤ 10 then
    compensate shortened
  else
    shortened

/-- `rtlsdr_callback` puts the samples of a block in front of `lowpassed`. -/
def receive
    (s : DongleState)
    (d : Decimator)
    (block : Block) :
    DongleState × Decimator :=
  let called := rtlsdrCallback s ⟨d.lowpassed, d.lpLen, 0, 0, 0, 0⟩ block
  (called.1,
    { d with lowpassed := called.2.lowpassed, lpLen := called.2.lpLen })

/-- A block from the device, through `rtlsdr_callback` and then `full_demod`. -/
def decimateBlock
    (s : DongleState)
    (d : Decimator)
    (block : Block) :
    DongleState × Decimator :=
  let received := receive s d block
  (received.1, decimate received.2)

/-- The state after all blocks. -/
def decimateBlocks (s : DongleState) (d : Decimator) (blocks : List Block) :
    DongleState × Decimator :=
  blocks.foldl (fun state block => decimateBlock state.1 state.2 block) (s, d)

/-- No value was truncated to an `int16_t`, and no `int` overflowed. -/
structure Exact (d : Decimator) : Prop where
  assigned : ∀ value ∈ d.assigned, Fits value
  sums : ∀ value ∈ d.sums, CheckedInt.Fits value

/-! ## What the values of a pass have in common -/

/-- All six values. -/
structure Taps.All (Holds : Int16 → Prop) (taps : Taps) : Prop where
  a : Holds taps.a
  b : Holds taps.b
  c : Holds taps.c
  d : Holds taps.d
  e : Holds taps.e
  f : Holds taps.f

theorem Taps.All.push
    {Holds : Int16 → Prop}
    {taps : Taps}
    (all : taps.All Holds)
    {value : Int16}
    (holds : Holds value) :
    (taps.push value).All Holds :=
  ⟨all.b, all.c, all.d, all.e, all.f, holds⟩

theorem Taps.All.pushAll
    {Holds : Int16 → Prop}
    {taps : Taps}
    (all : taps.All Holds)
    {values : List Int16}
    (hold : ∀ value ∈ values, Holds value) :
    (taps.pushAll values).All Holds := by
  induction values generalizing taps with
  | nil =>
      exact all
  | cons value rest inductionHypothesis =>
      rw [List.forall_mem_cons] at hold
      exact inductionHypothesis (all.push hold.1) hold.2

/-- What the outputs of a pass have in common, when its values do. -/
def Carries (before after : Int16 → Prop) : Prop :=
  ∀ taps : Taps, taps.All before → after (Int16.ofInt taps.weighted)

/-- The values of a buffer that a pass may read. -/
def Front (Holds : Int16 → Prop) (data : Nat → Int16) (length : Nat) : Prop :=
  ∀ place < max length 2, Holds (data place)

/-- What a call of `fifth_order` on one channel leaves. -/
structure Called
    (before after : Int16 → Prop)
    (data : Nat → Int16)
    (base length : Nat)
    (s : FifthOrder) : Prop where
  taps : s.taps.All before
  stored : ∀ t, 4 * t < max length 1 → after (s.data (base + 2 * t))
  kept : ∀ place, place % 2 ≠ base % 2 → s.data place = data place
  assigned :
    ∀ value ∈ s.assigned, ∃ taps : Taps, taps.All before ∧ value = taps.weighted

/-- A call reads values of the front only. -/
theorem fifthOrder_called
    {before after : Int16 → Prop}
    (carries : Carries before after)
    {data : Nat → Int16}
    {base length : Nat}
    {hist : Taps}
    (hists : hist.All before)
    (front : ∀ t, 2 * t < max length 1 → before (data (base + 2 * t))) :
    Called before after data base length (fifthOrder data base length hist) := by
  have halved := fifthOrder_halved data base length hist
  have read :
      ∀ t ≤ (length - 1) / 4,
        (hist.pushAll (channel data base (2 * t + 1))).All before := by
    intro t atMost
    apply hists.pushAll
    intro value member
    obtain ⟨j, inRange, rfl⟩ := List.mem_map.mp member
    have inside := List.mem_range.mp inRange
    exact front j (by omega)
  constructor
  · rw [halved.taps]
    exact read _ (Nat.le_refl _)
  · intro t inside
    rw [halved.stored t (by omega)]
    exact carries _ (read t (by omega))
  · intro place other
    exact halved.kept place (fun t _ => by omega)
  · intro value member
    rw [halved.assigned] at member
    obtain ⟨t, inRange, rfl⟩ := List.mem_map.mp member
    have atMost := List.mem_range.mp inRange
    exact ⟨_, read t (by omega), rfl⟩

/-- What a pass leaves for the next one, and in its histories. -/
structure Turned
    (before after : Int16 → Prop)
    (i : Nat)
    (d called : PassState) : Prop where
  front : Front after called.lowpassed (d.lpLen >>> (i + 1))
  lpLen : called.lpLen = d.lpLen
  histI : (called.lpIHist i).All before
  histQ : (called.lpQHist i).All before
  others :
    ∀ j, j ≠ i →
      called.lpIHist j = d.lpIHist j ∧ called.lpQHist j = d.lpQHist j
  assigned :
    ∀ value ∈ called.assigned,
      value ∈ d.assigned ∨ ∃ taps : Taps, taps.All before ∧ value = taps.weighted

/-- A pass over a front of values. -/
theorem passTurn_turned
    {before after : Int16 → Prop}
    (carries : Carries before after)
    {d : PassState}
    {i : Nat}
    (histI : (d.lpIHist i).All before)
    (histQ : (d.lpQHist i).All before)
    (front : Front before d.lowpassed (d.lpLen >>> i)) :
    Turned before after i d (passTurn d i) := by
  have half : d.lpLen >>> (i + 1) = d.lpLen >>> i / 2 := by
    rw [Nat.shiftRight_add, Nat.shiftRight_one]
  have first :
      Called before after d.lowpassed 0 (d.lpLen >>> i)
        (fifthOrder d.lowpassed 0 (d.lpLen >>> i) (d.lpIHist i)) := by
    apply fifthOrder_called carries histI
    intro t inside
    exact front _ (by omega)
  have second :
      Called before after
        (fifthOrder d.lowpassed 0 (d.lpLen >>> i) (d.lpIHist i)).data 1
        (d.lpLen >>> i - 1)
        (fifthOrder (fifthOrder d.lowpassed 0 (d.lpLen >>> i) (d.lpIHist i)).data 1
          (d.lpLen >>> i - 1) (d.lpQHist i)) := by
    apply fifthOrder_called carries histQ
    intro t inside
    rw [first.kept _ (by omega)]
    exact front _ (by omega)
  constructor
  · intro place inside
    rw [half] at inside
    simp only [passTurn]
    rcases Nat.mod_two_eq_zero_or_one place with even | odd
    · rw [second.kept _ (by omega),
        show place = 0 + 2 * (place / 2) from by omega]
      exact first.stored _ (by omega)
    · rw [show place = 1 + 2 * (place / 2) from by omega]
      exact second.stored _ (by omega)
  · rfl
  · simpa [passTurn] using first.taps
  · simpa [passTurn] using second.taps
  · intro j other
    simp [passTurn, Function.update_of_ne other]
  · intro value member
    simp only [passTurn, List.mem_append] at member
    rcases member with (earlier | inFirst) | inSecond
    · exact .inl earlier
    · exact .inr (first.assigned value inFirst)
    · exact .inr (second.assigned value inSecond)

theorem passes_succ
    (count : Nat)
    (d : PassState) :
    passes (count + 1) d = passTurn (passes count d) count := by
  unfold passes
  rw [List.range_succ, List.foldl_append]
  rfl

/-- What the first passes leave. -/
structure Passed
    (Holds : Nat → Int16 → Prop)
    (count : Nat)
    (d called : PassState) : Prop where
  front : Front (Holds count) called.lowpassed (d.lpLen >>> count)
  lpLen : called.lpLen = d.lpLen
  hists :
    ∀ j < count,
      (called.lpIHist j).All (Holds j) ∧ (called.lpQHist j).All (Holds j)
  others :
    ∀ j, count ≤ j →
      called.lpIHist j = d.lpIHist j ∧ called.lpQHist j = d.lpQHist j
  assigned :
    ∀ value ∈ called.assigned,
      value ∈ d.assigned ∨
        ∃ j < count, ∃ taps : Taps, taps.All (Holds j) ∧ value = taps.weighted

/-- The run of the passes, from the first one on. -/
theorem passes_passed
    {Holds : Nat → Int16 → Prop}
    {count : Nat}
    (carries : ∀ j < count, Carries (Holds j) (Holds (j + 1)))
    {d : PassState}
    (hists :
      ∀ j < count,
        (d.lpIHist j).All (Holds j) ∧ (d.lpQHist j).All (Holds j))
    (front : Front (Holds 0) d.lowpassed d.lpLen) :
    Passed Holds count d (passes count d) := by
  induction count with
  | zero =>
      exact
        ⟨front, rfl, fun j below => absurd below (Nat.not_lt_zero j),
          fun j _ => ⟨rfl, rfl⟩, fun value member => .inl member⟩
  | succ count inductionHypothesis =>
      have passed :=
        inductionHypothesis (fun j below => carries j (by omega))
          (fun j below => hists j (by omega))
      have untouched := passed.others count (Nat.le_refl _)
      have histsHere := hists count (Nat.lt_succ_self _)
      have turned :=
        passTurn_turned (carries count (Nat.lt_succ_self _))
          (by rw [untouched.1]; exact histsHere.1)
          (by rw [untouched.2]; exact histsHere.2)
          (by rw [passed.lpLen]; exact passed.front)
      rw [passes_succ]
      constructor
      · rw [← passed.lpLen]
        exact turned.front
      · rw [turned.lpLen, passed.lpLen]
      · intro j below
        rcases Nat.lt_succ_iff_lt_or_eq.mp below with earlier | rfl
        · have same := turned.others j (by omega)
          rw [same.1, same.2]
          exact passed.hists j earlier
        · exact ⟨turned.histI, turned.histQ⟩
      · intro j beyond
        have same := turned.others j (by omega)
        rw [same.1, same.2]
        exact passed.others j (by omega)
      · intro value member
        rcases turned.assigned value member with earlier | ⟨taps, all, isValue⟩
        · rcases passed.assigned value earlier with before | ⟨j, below, rest⟩
          · exact .inl before
          · exact .inr ⟨j, by omega, rest⟩
        · exact .inr ⟨count, by omega, taps, all, isValue⟩

/-! ## The compensation -/

/-- The history and the outputs of a call, when its values have something in common. -/
structure Compensated
    (Holds : Int16 → Prop)
    (fir : List Int)
    (s : GenericFir) : Prop where
  hist : ∀ k < 9, Holds (s.hist k)
  assigned :
    ∀ value ∈ s.assigned,
      ∃ hist : Nat → Int16,
        (∀ k < 9, Holds (hist k)) ∧ value = (firTerms fir hist).sum >>> (15 : Nat)
  sums :
    ∀ value ∈ s.sums,
      ∃ hist : Nat → Int16,
        (∀ k < 9, Holds (hist k)) ∧ value ∈ firSums (firTerms fir hist)

theorem shiftHist_holds
    {Holds : Int16 → Prop}
    {hist : Nat → Int16}
    (hists : ∀ k < 9, Holds (hist k))
    {temp : Int16}
    (holds : Holds temp) :
    ∀ k < 9, Holds (shiftHist hist temp k) := by
  intro k below
  unfold shiftHist
  split
  · exact hists (k + 1) (by omega)
  · exact holds

/-- A call of `generic_fir` on one channel, which leaves the other alone. -/
theorem genericFir_compensated
    {Holds : Int16 → Prop}
    (fir : List Int)
    {data : Nat → Int16}
    {base length : Nat}
    {hist : Nat → Int16}
    (hists : ∀ k < 9, Holds (hist k))
    (front : ∀ t, 2 * t < length → Holds (data (base + 2 * t))) :
    Compensated Holds fir (genericFir data base length fir hist) ∧
      ∀ place, place % 2 ≠ base % 2 →
        (genericFir data base length fir hist).data place = data place := by
  have turns :
      ∀ count ≤ (length + 1) / 2,
        let s :=
          (List.range count).foldl
            (fun s turn => genericFirTurn fir base s (2 * turn))
            ⟨data, hist, [], []⟩
        Compensated Holds fir s ∧
          ∀ place, (∀ t < count, place ≠ base + 2 * t) → s.data place = data place := by
    intro count atMost
    induction count with
    | zero =>
        refine ⟨⟨hists, ?_, ?_⟩, fun place _ => rfl⟩
        · intro value member
          cases member
        · intro value member
          cases member
    | succ count inductionHypothesis =>
        obtain ⟨compensated, kept⟩ := inductionHypothesis (by omega)
        rw [List.range_succ, List.foldl_append]
        generalize
          (List.range count).foldl
            (fun s turn => genericFirTurn fir base s (2 * turn))
            (⟨data, hist, [], []⟩ : GenericFir) = s at *
        have read : s.data (base + 2 * count) = data (base + 2 * count) :=
          kept _ (fun t earlier => by omega)
        refine ⟨⟨?_, ?_, ?_⟩, ?_⟩
        · apply shiftHist_holds compensated.hist
          rw [read]
          exact front count (by omega)
        · intro value member
          rcases List.mem_append.mp member with earlier | last
          · exact compensated.assigned value earlier
          · exact ⟨s.hist, compensated.hist, List.mem_singleton.mp last⟩
        · intro value member
          rcases List.mem_append.mp member with earlier | last
          · exact compensated.sums value earlier
          · exact ⟨s.hist, compensated.hist, last⟩
        · intro place elsewhere
          have other := elsewhere count (Nat.lt_succ_self _)
          simp only [List.foldl_cons, List.foldl_nil, genericFirTurn]
          rw [Function.update_of_ne other]
          exact kept place (fun t earlier => elsewhere t (by omega))
  obtain ⟨compensated, kept⟩ := turns _ (Nat.le_refl _)
  exact ⟨compensated, fun place other => kept place (fun t _ => by omega)⟩

/-- The magnitudes of what is added up bound each sum on the way. -/
theorem firSums_bounded
    {terms : List Int}
    {value : Int}
    (member : value ∈ firSums terms) :
    value.natAbs ≤ (terms.map Int.natAbs).sum := by
  have prefixes :
      ∀ n, (terms.take n).sum.natAbs ≤ (terms.map Int.natAbs).sum := by
    clear member
    intro n
    induction terms generalizing n with
    | nil =>
        simp
    | cons term rest inductionHypothesis =>
        cases n with
        | zero =>
            simp
        | succ n =>
            have later := inductionHypothesis n
            have triangle := Int.natAbs_add_le term (rest.take n).sum
            rw [List.take_succ_cons, List.sum_cons, List.map_cons, List.sum_cons]
            omega
  rcases List.mem_append.mp member with inTerms | inSums
  · exact List.single_le_sum (by simp) _ (List.mem_map_of_mem inTerms)
  · obtain ⟨n, -, rfl⟩ := List.mem_map.mp inSums
    exact prefixes n

/-- The magnitudes of the coefficients, as often as they are used. -/
def magnitude (fir : List Int) : Nat :=
  2 * ((coefficient fir 1).natAbs + (coefficient fir 2).natAbs +
    (coefficient fir 3).natAbs + (coefficient fir 4).natAbs) +
      (coefficient fir 5).natAbs

/-- The terms are no larger together than the coefficients and the samples allow. -/
theorem firTerms_bounded
    {bound : Nat}
    (fir : List Int)
    {hist : Nat → Int16}
    (small : ∀ k < 9, (hist k).toInt.natAbs ≤ bound) :
    ((firTerms fir hist).map Int.natAbs).sum ≤ bound * magnitude fir := by
  have pair :
      ∀ j k c, j < 9 → k < 9 →
        (((hist j).toInt + (hist k).toInt) * coefficient fir c).natAbs ≤
          2 * bound * (coefficient fir c).natAbs := by
    intro j k c jBelow kBelow
    have triangle := Int.natAbs_add_le (hist j).toInt (hist k).toInt
    have first := small j jBelow
    have second := small k kBelow
    rw [Int.natAbs_mul]
    exact Nat.mul_le_mul_right _ (by omega)
  have single :
      ((hist 4).toInt * coefficient fir 5).natAbs ≤
        bound * (coefficient fir 5).natAbs := by
    rw [Int.natAbs_mul]
    exact Nat.mul_le_mul_right _ (small 4 (by decide))
  have expanded :
      bound * magnitude fir =
        2 * bound * (coefficient fir 1).natAbs +
          (2 * bound * (coefficient fir 2).natAbs +
            (2 * bound * (coefficient fir 3).natAbs +
              (2 * bound * (coefficient fir 4).natAbs +
                bound * (coefficient fir 5).natAbs))) := by
    unfold magnitude
    ring
  have first := pair 0 8 1 (by decide) (by decide)
  have second := pair 1 7 2 (by decide) (by decide)
  have third := pair 2 6 3 (by decide) (by decide)
  have fourth := pair 3 5 4 (by decide) (by decide)
  simp only [firTerms, List.map_cons, List.map_nil, List.sum_cons, List.sum_nil]
  omega

/-! ## The levels of the passes -/

/-- The values that can stand in front of pass `i`. -/
def Level (i : Nat) (value : Int16) : Prop :=
  -127 * 2 ^ i ≤ value.toInt ∧ value.toInt ≤ 128 * 2 ^ i

/-- A pass doubles the level. -/
theorem weighted_level
    {i : Nat}
    {taps : Taps}
    (all : taps.All (Level i)) :
    -127 * 2 ^ (i + 1) ≤ taps.weighted ∧ taps.weighted ≤ 128 * 2 ^ (i + 1) := by
  obtain ⟨a, b, c, d, e, f⟩ := all
  unfold Level at *
  have double : (2 : Int) ^ (i + 1) = 2 * 2 ^ i := by
    rw [Int.pow_succ, Int.mul_comm]
  rw [double]
  unfold Taps.weighted
  rw [Int.shiftRight_eq_div_pow]
  omega

/-- Up to the seventh pass the values are kept as they are. -/
theorem carries_level
    {i : Nat}
    (few : i < 7) :
    Carries (Level i) (Level (i + 1)) := by
  intro taps all
  have bounds := weighted_level all
  have level : (2 : Int) ^ (i + 1) ≤ 2 ^ 7 :=
    pow_le_pow_right₀ (by decide) (by omega)
  have exact : (Int16.ofInt taps.weighted).toInt = taps.weighted := by
    rw [toInt_eq_iff_fits]
    unfold Fits
    omega
  unfold Level
  rw [exact]
  exact bounds

/-- Every row of the table. -/
theorem magnitude_cic9Tables
    {passes : Nat}
    (inTable : passes ≤ 10) :
    magnitude (cic9Tables.getD passes []) ≤ 144156 := by
  revert passes
  decide

/-- The number of passes and the size of the compensation for which all values fit. -/
def FewPasses (d : Decimator) : Prop :=
  d.downsamplePasses ≤ 7 ∧ (d.compFirSize = 9 → d.downsamplePasses ≤ 5)

/-- The histories are at their levels, and nothing was truncated so far. -/
structure AtLevel (d : Decimator) : Prop where
  hists :
    ∀ j < d.downsamplePasses,
      (d.lpIHist j).All (Level j) ∧ (d.lpQHist j).All (Level j)
  droopI : ∀ k < 9, Level d.downsamplePasses (d.droopIHist k)
  droopQ : ∀ k < 9, Level d.downsamplePasses (d.droopQHist k)
  exact : Exact d

theorem fits_of_level
    {i : Nat}
    (few : i < 7)
    {taps : Taps}
    (all : taps.All (Level i)) :
    Fits taps.weighted := by
  have bounds := weighted_level all
  have level : (2 : Int) ^ (i + 1) ≤ 2 ^ 7 :=
    pow_le_pow_right₀ (by decide) (by omega)
  unfold Fits
  omega

/-- The compensation behind at most five passes. -/
theorem fits_compensation
    {passes : Nat}
    (few : passes ≤ 5)
    {hist : Nat → Int16}
    (level : ∀ k < 9, Level passes (hist k)) :
    Fits ((firTerms (cic9Tables.getD passes []) hist).sum >>> (15 : Nat)) ∧
      ∀ value ∈ firSums (firTerms (cic9Tables.getD passes []) hist),
        CheckedInt.Fits value := by
  have small : ∀ k < 9, (hist k).toInt.natAbs ≤ 4096 := by
    intro k below
    have bounds := level k below
    have power : (2 : Int) ^ passes ≤ 2 ^ 5 :=
      pow_le_pow_right₀ (by decide) few
    unfold Level at bounds
    omega
  have terms := firTerms_bounded (cic9Tables.getD passes []) small
  have row := magnitude_cic9Tables (show passes ≤ 10 by omega)
  have bounded :
      ∀ value ∈ firSums (firTerms (cic9Tables.getD passes []) hist),
        value.natAbs ≤ 4096 * 144156 :=
    fun value member =>
      (firSums_bounded member).trans
        (terms.trans (Nat.mul_le_mul_left _ row))
  constructor
  · have total :
        (firTerms (cic9Tables.getD passes []) hist).sum ∈
          firSums (firTerms (cic9Tables.getD passes []) hist) := by
      apply List.mem_append_right
      exact List.mem_map.mpr ⟨5, by simp [firTerms], by simp [firTerms]⟩
    have sum := bounded _ total
    unfold Fits
    rw [Int.shiftRight_eq_div_pow]
    omega
  · intro value member
    have sum := bounded value member
    unfold CheckedInt.Fits
    omega

/-- The options stay as they are. -/
theorem decimate_options
    (d : Decimator) :
    (decimate d).downsamplePasses = d.downsamplePasses ∧
      (decimate d).compFirSize = d.compFirSize := by
  unfold decimate compensate
  split
  · exact ⟨rfl, rfl⟩
  · exact ⟨rfl, rfl⟩

/-- A block through `full_demod`. -/
theorem decimate_atLevel
    {d : Decimator}
    (few : FewPasses d)
    (atLevel : AtLevel d)
    (front : Front (Level 0) d.lowpassed d.lpLen) :
    AtLevel (decimate d) := by
  have most := few.1
  have passed :=
    @passes_passed Level _ (fun j below => carries_level (by omega)) _
      atLevel.hists front
  have assigned :
      ∀ value ∈ (passes d.downsamplePasses d.toPassState).assigned, Fits value := by
    intro value member
    rcases passed.assigned value member with earlier | ⟨j, below, taps, all, rfl⟩
    · exact atLevel.exact.assigned value earlier
    · exact fits_of_level (by omega) all
  unfold decimate
  generalize passes d.downsamplePasses d.toPassState = called at *
  by_cases compensated : d.compFirSize = 9 ∧ d.downsamplePasses ≤ 10
  · simp only [if_pos compensated]
    have fewer := few.2 compensated.1
    have frontAfter : Front (Level d.downsamplePasses) called.lowpassed
        (called.lpLen >>> d.downsamplePasses) := by
      rw [passed.lpLen]
      exact passed.front
    obtain ⟨first, kept⟩ :=
      @genericFir_compensated (Level d.downsamplePasses)
        (cic9Tables.getD d.downsamplePasses []) called.lowpassed 0
        (called.lpLen >>> d.downsamplePasses) d.droopIHist atLevel.droopI
        (fun t inside => frontAfter _ (by omega))
    obtain ⟨second, -⟩ :=
      @genericFir_compensated (Level d.downsamplePasses)
        (cic9Tables.getD d.downsamplePasses [])
        (genericFir called.lowpassed 0 (called.lpLen >>> d.downsamplePasses)
          (cic9Tables.getD d.downsamplePasses []) d.droopIHist).data 1
        (called.lpLen >>> d.downsamplePasses - 1) d.droopQHist atLevel.droopQ
        (fun t inside => by
          rw [kept _ (by omega)]
          exact frontAfter _ (by omega))
    refine ⟨passed.hists, first.hist, second.hist, ?_, ?_⟩
    · intro value member
      simp only [compensate, List.mem_append] at member
      rcases member with (earlier | inFirst) | inSecond
      · exact assigned value earlier
      · obtain ⟨hist, level, rfl⟩ := first.assigned value inFirst
        exact (fits_compensation fewer level).1
      · obtain ⟨hist, level, rfl⟩ := second.assigned value inSecond
        exact (fits_compensation fewer level).1
    · intro value member
      simp only [compensate, List.mem_append] at member
      rcases member with (earlier | inFirst) | inSecond
      · exact atLevel.exact.sums value earlier
      · obtain ⟨hist, level, inSums⟩ := first.sums value inFirst
        exact (fits_compensation fewer level).2 value inSums
      · obtain ⟨hist, level, inSums⟩ := second.sums value inSecond
        exact (fits_compensation fewer level).2 value inSums
  · simp only [if_neg compensated]
    exact ⟨passed.hists, atLevel.droopI, atLevel.droopQ, assigned, atLevel.exact.sums⟩

/-- The samples that `rtlsdr_callback` leaves are values of bytes. -/
theorem front_receive
    (s : DongleState)
    (d : Decimator)
    {block : Block}
    (whole : 2 ≤ block.len) :
    Front (Level 0) (receive s d block).2.lowpassed (receive s d block).2.lpLen := by
  intro place inside
  have inBlock : place < block.len := by
    have length : (receive s d block).2.lpLen = block.len := rfl
    omega
  have isSample :
      (receive s d block).2.lowpassed place =
        (buf16Of (preparedBuf s block place)).toInt16 := by
    simp [receive, rtlsdrCallback, blit, window, inBlock]
  have bounds := sampleValue_bounds (preparedBuf s block place)
  unfold Level
  rw [isSample, buf16Of_toInt]
  omega

/-- Any stream, wherever its blocks end. -/
theorem decimateBlocks_atLevel
    (s : DongleState)
    {d : Decimator}
    (few : FewPasses d)
    (atLevel : AtLevel d)
    {blocks : List Block}
    (whole : ∀ block ∈ blocks, 2 ≤ block.len) :
    AtLevel (decimateBlocks s d blocks).2 := by
  induction blocks generalizing s d with
  | nil =>
      exact atLevel
  | cons block rest inductionHypothesis =>
      rw [List.forall_mem_cons] at whole
      obtain ⟨samePasses, sameSize⟩ := decimate_options (receive s d block).2
      have received : AtLevel (receive s d block).2 :=
        ⟨atLevel.hists, atLevel.droopI, atLevel.droopQ,
          atLevel.exact.assigned, atLevel.exact.sums⟩
      have fewReceived : FewPasses (receive s d block).2 := few
      have next := decimate_atLevel fewReceived received (front_receive s d whole.1)
      apply inductionHypothesis (receive s d block).1 _ next whole.2
      unfold FewPasses
      rw [samePasses, sameSize]
      exact few

end LibRtlSdr.RtlFm
