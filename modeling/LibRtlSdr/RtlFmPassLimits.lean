import LibRtlSdr.RtlFmPasses

namespace LibRtlSdr.RtlFm

/-!
# Streams that reach the limits of the low-leakage path

A stream that stays at one value settles pass after pass: then the histories of a pass
hold that value, doubled with every pass before it.  A short block moves the passes on
without a sample for the compensation, so what the compensation remembers can be set
sample by sample.
-/

open BoundedBuffer (window blit)

/-- The value that a constant stream has in front of pass `i`. -/
def steady (value : Int) (i : Nat) : Int16 :=
  Int16.ofInt (value * 2 ^ i)

/-- A block of equal bytes. -/
def tone (byte : UInt8) (len : Nat) : Block where
  buf := fun _ => byte
  len := len

/-- Offset tuning, nothing muted: the bytes are converted as they are. -/
def plainDongle : DongleState where
  offsetTuning := true
  mute := 0

theorem steady_toInt
    (byte : UInt8)
    {i : Nat}
    (few : i ≤ 7) :
    (steady (sampleValue byte) i).toInt = sampleValue byte * 2 ^ i := by
  have bounds := sampleValue_bounds byte
  unfold steady
  rw [toInt_eq_iff_fits]
  unfold Fits
  have cases : i = 0 ∨ i = 1 ∨ i = 2 ∨ i = 3 ∨ i = 4 ∨ i = 5 ∨ i = 6 ∨ i = 7 := by
    omega
  rcases cases with rfl | rfl | rfl | rfl | rfl | rfl | rfl | rfl <;> omega

/-- Equal values are doubled. -/
theorem weighted_steady
    (byte : UInt8)
    {i : Nat}
    (few : i ≤ 7)
    {taps : Taps}
    (all : taps.All (· = steady (sampleValue byte) i)) :
    taps.weighted = sampleValue byte * 2 ^ (i + 1) := by
  obtain ⟨a, b, c, d, e, f⟩ := all
  have value := steady_toInt byte few
  unfold Taps.weighted
  rw [a, b, c, d, e, f, value, Int.shiftRight_eq_div_pow, Int.pow_succ,
    ← Int.mul_assoc]
  omega

theorem carries_steady
    (byte : UInt8)
    {i : Nat}
    (few : i ≤ 7) :
    Carries (· = steady (sampleValue byte) i)
      (· = steady (sampleValue byte) (i + 1)) := by
  intro taps all
  unfold steady
  rw [weighted_steady byte few all]

/-- The first passes have settled. -/
def Settled (byte : UInt8) (i : Nat) (d : Decimator) : Prop :=
  ∀ j < i,
    (d.lpIHist j).All (· = steady (sampleValue byte) j) ∧
      (d.lpQHist j).All (· = steady (sampleValue byte) j)

/-- A block of equal bytes is a front of equal samples. -/
theorem front_tone
    (d : Decimator)
    (byte : UInt8)
    {len : Nat}
    (whole : 2 ≤ len) :
    Front (· = steady (sampleValue byte) 0)
      (receive plainDongle d (tone byte len)).2.lowpassed len := by
  intro place inside
  have inBlock : place < len := by omega
  have isSample :
      (receive plainDongle d (tone byte len)).2.lowpassed place =
        (buf16Of byte).toInt16 := by
    simp [receive, rtlsdrCallback, blit, window, tone, inBlock, plainDongle,
      preparedBuf_of_offsetTuning]
  rw [isSample]
  apply Int16.toInt_inj.mp
  rw [buf16Of_toInt, steady_toInt byte (Nat.zero_le 7)]
  omega

/-! ## One short block -/

/-- A pass at which one sample of each channel is left. -/
theorem passTurn_short
    {d : PassState}
    {i : Nat}
    (short : d.lpLen >>> i ≤ 4) :
    (passTurn d i).lpIHist i = (d.lpIHist i).push (d.lowpassed 0) ∧
      (passTurn d i).lpQHist i = (d.lpQHist i).push (d.lowpassed 1) := by
  have first := fifthOrder_halved d.lowpassed 0 (d.lpLen >>> i) (d.lpIHist i)
  have second :=
    fifthOrder_halved
      (fifthOrder d.lowpassed 0 (d.lpLen >>> i) (d.lpIHist i)).data 1
      (d.lpLen >>> i - 1) (d.lpQHist i)
  have noTurnI : (d.lpLen >>> i - 1) / 4 = 0 := by omega
  have noTurnQ : (d.lpLen >>> i - 1 - 1) / 4 = 0 := by omega
  have untouched := first.kept 1 (fun t _ => by omega)
  rw [noTurnI] at first
  rw [noTurnQ] at second
  constructor
  · have taps := first.taps
    simp only [passTurn, Function.update_self]
    rw [taps]
    simp [channel, Taps.pushAll]
  · have taps := second.taps
    simp only [passTurn, Function.update_self]
    rw [taps]
    simp [channel, Taps.pushAll, untouched]

/-- A pass is done with its histories when it has run. -/
theorem passes_hist
    {count i : Nat}
    (ran : i < count)
    (d : PassState) :
    (passes count d).lpIHist i = (passTurn (passes i d) i).lpIHist i ∧
      (passes count d).lpQHist i = (passTurn (passes i d) i).lpQHist i := by
  induction count with
  | zero =>
      omega
  | succ count inductionHypothesis =>
      rw [passes_succ]
      rcases Nat.lt_succ_iff_lt_or_eq.mp ran with earlier | rfl
      · obtain ⟨sameI, sameQ⟩ := inductionHypothesis earlier
        rw [← sameI, ← sameQ]
        simp only [passTurn]
        rw [Function.update_of_ne (by omega), Function.update_of_ne (by omega)]
        exact ⟨rfl, rfl⟩
      · exact ⟨rfl, rfl⟩

/-- The histories of the passes are those that the loop over them leaves. -/
theorem decimate_hists
    (d : Decimator) :
    (decimate d).lpIHist = (passes d.downsamplePasses d.toPassState).lpIHist ∧
      (decimate d).lpQHist = (passes d.downsamplePasses d.toPassState).lpQHist := by
  unfold decimate compensate
  split
  · exact ⟨rfl, rfl⟩
  · exact ⟨rfl, rfl⟩

/-- The passes that have settled pass a block of equal bytes on. -/
theorem passed_tone
    (byte : UInt8)
    {d : Decimator}
    {i : Nat}
    (few : i ≤ 8)
    (settled : Settled byte i d)
    {len : Nat}
    (whole : 2 ≤ len) :
    Passed (fun j value => value = steady (sampleValue byte) j) i
      (receive plainDongle d (tone byte len)).2.toPassState
      (passes i (receive plainDongle d (tone byte len)).2.toPassState) :=
  @passes_passed (fun j value => value = steady (sampleValue byte) j) i
    (fun _ below => carries_steady byte (by omega))
    (receive plainDongle d (tone byte len)).2.toPassState settled
    (front_tone d byte whole)

/-- A short block moves on the first pass that has not settled. -/
theorem shortBlock_moves
    (byte : UInt8)
    {d : Decimator}
    (few : d.downsamplePasses ≤ 8)
    {i : Nat}
    (settled : Settled byte i d)
    (notAll : i < d.downsamplePasses) :
    Settled byte i (decimateBlock plainDongle d (tone byte 2)).2 ∧
      (decimateBlock plainDongle d (tone byte 2)).2.lpIHist i =
        (d.lpIHist i).push (steady (sampleValue byte) i) ∧
      (decimateBlock plainDongle d (tone byte 2)).2.lpQHist i =
        (d.lpQHist i).push (steady (sampleValue byte) i) := by
  have passed := passed_tone byte (by omega) settled (Nat.le_refl 2)
  obtain ⟨histI, histQ⟩ := decimate_hists (receive plainDongle d (tone byte 2)).2
  change Settled byte i (decimate (receive plainDongle d (tone byte 2)).2) ∧
    (decimate (receive plainDongle d (tone byte 2)).2).lpIHist i = _ ∧
    (decimate (receive plainDongle d (tone byte 2)).2).lpQHist i = _
  have count :
      (receive plainDongle d (tone byte 2)).2.downsamplePasses = d.downsamplePasses :=
    rfl
  rw [histI, histQ, count]
  refine ⟨?_, ?_, ?_⟩
  · intro j below
    have last := passes_hist (show j < d.downsamplePasses by omega)
      (receive plainDongle d (tone byte 2)).2.toPassState
    have first := passes_hist below
      (receive plainDongle d (tone byte 2)).2.toPassState
    rw [histI, histQ, count, last.1, last.2, ← first.1, ← first.2]
    exact passed.hists j below
  all_goals
    have last := passes_hist notAll (receive plainDongle d (tone byte 2)).2.toPassState
    have untouched := passed.others i (Nat.le_refl i)
    have length : (receive plainDongle d (tone byte 2)).2.lpLen = 2 := rfl
    have short :
        (passes i (receive plainDongle d (tone byte 2)).2.toPassState).lpLen >>> i ≤
          4 := by
      rw [passed.lpLen, length, Nat.shiftRight_eq_div_pow]
      exact (Nat.div_le_self _ _).trans (by decide)
    have moved := passTurn_short short
  · rw [last.1, moved.1, untouched.1, passed.front 0 (by omega)]
    rfl
  · rw [last.2, moved.2, untouched.2, passed.front 1 (by omega)]
    rfl

/-- A short block leaves no sample for the compensation. -/
theorem shortBlock_droop
    (byte : UInt8)
    {d : Decimator}
    (several : 2 ≤ d.downsamplePasses) :
    (decimateBlock plainDongle d (tone byte 2)).2.droopIHist = d.droopIHist := by
  have length :
      (passes d.downsamplePasses
        (receive plainDongle d (tone byte 2)).2.toPassState).lpLen = 2 := by
    have same :
        ∀ count,
          (passes count (receive plainDongle d (tone byte 2)).2.toPassState).lpLen = 2 := by
      intro count
      induction count with
      | zero => rfl
      | succ count inductionHypothesis =>
          rw [passes_succ]
          exact inductionHypothesis
    exact same _
  have none : 2 >>> d.downsamplePasses = 0 := by
    rw [Nat.shiftRight_eq_div_pow]
    apply Nat.div_eq_of_lt
    exact
      (show 2 < 2 ^ 2 by decide).trans_le
        (Nat.pow_le_pow_right (by decide) several)
  change (decimate (receive plainDongle d (tone byte 2)).2).droopIHist = _
  have count :
      (receive plainDongle d (tone byte 2)).2.downsamplePasses = d.downsamplePasses :=
    rfl
  unfold decimate
  split
  · simp only [compensate, count, length, none]
    rfl
  · rfl

/-- The state after blocks of equal bytes. -/
def feedTones (d : Decimator) (tones : List Block) : Decimator :=
  (decimateBlocks plainDongle d tones).2

/-- The dongle stays as it is. -/
theorem decimateBlocks_plain
    (d : Decimator)
    (blocks : List Block) :
    decimateBlocks plainDongle d blocks = (plainDongle, feedTones d blocks) := by
  induction blocks generalizing d with
  | nil =>
      rfl
  | cons block rest inductionHypothesis =>
      exact inductionHypothesis (decimateBlock plainDongle d block).2

theorem feedTones_append
    (d : Decimator)
    (first second : List Block) :
    feedTones d (first ++ second) = feedTones (feedTones d first) second := by
  unfold feedTones
  conv_lhs => rw [decimateBlocks, List.foldl_append]
  change (decimateBlocks (decimateBlocks plainDongle d first).1
    (decimateBlocks plainDongle d first).2 second).2 = _
  rw [decimateBlocks_plain d first]

theorem feedTones_concat
    (d : Decimator)
    (blocks : List Block)
    (block : Block) :
    feedTones d (blocks ++ [block]) =
      (decimateBlock plainDongle (feedTones d blocks) block).2 :=
  feedTones_append d blocks [block]

/-- What no block changes. -/
theorem feedTones_options
    (d : Decimator)
    (blocks : List Block) :
    (feedTones d blocks).downsamplePasses = d.downsamplePasses ∧
      (feedTones d blocks).compFirSize = d.compFirSize := by
  induction blocks using List.reverseRecOn with
  | nil =>
      exact ⟨rfl, rfl⟩
  | append_singleton blocks block inductionHypothesis =>
      rw [feedTones_concat]
      have options :=
        decimate_options (receive plainDongle (feedTones d blocks) block).2
      exact
        ⟨options.1.trans inductionHypothesis.1,
          options.2.trans inductionHypothesis.2⟩

/-- Six short blocks settle one pass more. -/
theorem settled_next
    (byte : UInt8)
    {d : Decimator}
    (few : d.downsamplePasses ≤ 8)
    {i : Nat}
    (settled : Settled byte i d)
    (notAll : i < d.downsamplePasses) :
    Settled byte (i + 1) (feedTones d (List.replicate 6 (tone byte 2))) := by
  have moved :
      ∀ count,
        let next := feedTones d (List.replicate count (tone byte 2))
        Settled byte i next ∧
          next.lpIHist i =
            (d.lpIHist i).pushAll
              (List.replicate count (steady (sampleValue byte) i)) ∧
          next.lpQHist i =
            (d.lpQHist i).pushAll
              (List.replicate count (steady (sampleValue byte) i)) := by
    intro count
    induction count with
    | zero =>
        exact ⟨settled, rfl, rfl⟩
    | succ count inductionHypothesis =>
        obtain ⟨before, histI, histQ⟩ := inductionHypothesis
        have options :=
          feedTones_options d (List.replicate count (tone byte 2))
        obtain ⟨after, pushedI, pushedQ⟩ :=
          shortBlock_moves byte (by rw [options.1]; exact few) before
            (by rw [options.1]; exact notAll)
        rw [List.replicate_succ', feedTones_concat]
        refine ⟨after, ?_, ?_⟩
        · rw [pushedI, histI, List.replicate_succ', pushAll_append]
          rfl
        · rw [pushedQ, histQ, List.replicate_succ', pushAll_append]
          rfl
  obtain ⟨before, histI, histQ⟩ := moved 6
  intro j below
  rcases Nat.lt_succ_iff_lt_or_eq.mp below with earlier | rfl
  · exact before j earlier
  · rw [histI, histQ]
    exact ⟨⟨rfl, rfl, rfl, rfl, rfl, rfl⟩, ⟨rfl, rfl, rfl, rfl, rfl, rfl⟩⟩

/-- Enough short blocks settle all passes, from any state. -/
theorem settled_all
    (byte : UInt8)
    {d : Decimator}
    (few : d.downsamplePasses ≤ 8)
    {i : Nat}
    (atMost : i ≤ d.downsamplePasses) :
    Settled byte i (feedTones d (List.replicate (6 * i) (tone byte 2))) := by
  induction i with
  | zero =>
      intro j below
      exact absurd below (Nat.not_lt_zero j)
  | succ i inductionHypothesis =>
      have before := inductionHypothesis (by omega)
      have options := feedTones_options d (List.replicate (6 * i) (tone byte 2))
      have next :=
        settled_next byte (by rw [options.1]; exact few) before
          (by rw [options.1]; omega)
      rw [← feedTones_append, ← List.replicate_add] at next
      exact next

/-! ## The eighth pass -/

/-- What was assigned stays in the record. -/
theorem assigned_passes
    {count i : Nat}
    (ran : i < count)
    (d : PassState) :
    ∀ value ∈ (passTurn (passes i d) i).assigned,
      value ∈ (passes count d).assigned := by
  induction count with
  | zero =>
      omega
  | succ count inductionHypothesis =>
      intro value member
      rw [passes_succ]
      rcases Nat.lt_succ_iff_lt_or_eq.mp ran with earlier | rfl
      · simp only [passTurn, List.mem_append]
        exact .inl (.inl (inductionHypothesis earlier value member))
      · exact member

theorem assigned_decimate
    (d : Decimator) :
    ∀ value ∈ (passes d.downsamplePasses d.toPassState).assigned,
      value ∈ (decimate d).assigned := by
  intro value member
  unfold decimate
  split
  · simp only [compensate, List.mem_append]
    exact .inl (.inl member)
  · exact member

/-- The first assignment of a pass. -/
theorem assigned_passTurn
    (d : PassState)
    (i : Nat) :
    ((d.lpIHist i).push (d.lowpassed 0)).weighted ∈ (passTurn d i).assigned := by
  have halved := fifthOrder_halved d.lowpassed 0 (d.lpLen >>> i) (d.lpIHist i)
  simp only [passTurn, List.mem_append]
  refine .inl (.inr ?_)
  rw [halved.assigned]
  refine List.mem_map.mpr ⟨0, List.mem_range.mpr (Nat.succ_pos _), ?_⟩
  simp [channel, Taps.pushAll]

/-- Full scale for long enough: the eighth pass assigns 32768. -/
theorem eighth_pass_truncates
    {d : Decimator}
    (eight : d.downsamplePasses = 8) :
    ¬ Exact (feedTones d (List.replicate 48 (tone 255 2) ++ [tone 255 2])) := by
  have settled :=
    settled_all 255 (show d.downsamplePasses ≤ 8 by omega)
      (show 8 ≤ d.downsamplePasses by omega)
  have options := feedTones_options d (List.replicate 48 (tone 255 2))
  rw [feedTones_concat]
  generalize feedTones d (List.replicate 48 (tone 255 2)) = before at *
  have isEight : before.downsamplePasses = 8 := options.1.trans eight
  have passed :=
    passed_tone 255 (show 7 ≤ 8 by decide)
      (fun j below => settled j (by omega)) (Nat.le_refl 2)
  have untouched := passed.others 7 (Nat.le_refl 7)
  have front := passed.front 0 (by omega)
  have last := settled 7 (by decide)
  have taps :
      (((passes 7 (receive plainDongle before (tone 255 2)).2.toPassState).lpIHist
          7).push
        ((passes 7 (receive plainDongle before (tone 255 2)).2.toPassState).lowpassed
          0)).All (· = steady (sampleValue 255) 7) := by
    rw [untouched.1, front]
    exact last.1.push rfl
  have value := weighted_steady 255 (Nat.le_refl 7) taps
  have assigned :=
    assigned_decimate (receive plainDongle before (tone 255 2)).2 _
      (assigned_passes
        (show 7 < (receive plainDongle before (tone 255 2)).2.downsamplePasses by
          change 7 < before.downsamplePasses
          omega)
        _ _ (assigned_passTurn _ 7))
  intro exact
  have fits := exact.assigned _ assigned
  rw [value] at fits
  revert fits
  unfold Fits
  decide

/-! ## The compensation -/

/-- A call on one sample of a channel. -/
theorem genericFir_single
    (data : Nat → Int16)
    (base : Nat)
    (fir : List Int)
    (hist : Nat → Int16) :
    (genericFir data base 2 fir hist).hist = shiftHist hist (data base) ∧
      (firTerms fir hist).sum >>> (15 : Nat) ∈ (genericFir data base 2 fir hist).assigned := by
  refine ⟨rfl, ?_⟩
  exact List.mem_singleton.mpr rfl

/-- The passes leave one sample of each channel for the compensation. -/
theorem decimate_single
    {d : Decimator}
    (few : d.downsamplePasses ≤ 10)
    (nine : d.compFirSize = 9)
    (single :
      (passes d.downsamplePasses d.toPassState).lpLen >>> d.downsamplePasses = 2) :
    (decimate d).droopIHist =
        shiftHist d.droopIHist
          ((passes d.downsamplePasses d.toPassState).lowpassed 0) ∧
      (firTerms (cic9Tables.getD d.downsamplePasses []) d.droopIHist).sum >>> (15 : Nat) ∈
        (decimate d).assigned := by
  have turned :=
    genericFir_single (passes d.downsamplePasses d.toPassState).lowpassed 0
      (cic9Tables.getD d.downsamplePasses []) d.droopIHist
  unfold decimate
  simp only [if_pos (And.intro nine few), compensate, single, List.mem_append]
  exact ⟨turned.1, .inl (.inr turned.2)⟩

/-- A block of which the settled passes leave one sample of each channel. -/
theorem longBlock_compensates
    (byte : UInt8)
    {d : Decimator}
    (few : d.downsamplePasses ≤ 8)
    (nine : d.compFirSize = 9)
    (settled : Settled byte d.downsamplePasses d) :
    (decimateBlock plainDongle d
          (tone byte (2 * 2 ^ d.downsamplePasses))).2.droopIHist =
        shiftHist d.droopIHist (steady (sampleValue byte) d.downsamplePasses) ∧
      (firTerms (cic9Tables.getD d.downsamplePasses []) d.droopIHist).sum >>> (15 : Nat) ∈
        (decimateBlock plainDongle d
          (tone byte (2 * 2 ^ d.downsamplePasses))).2.assigned := by
  have positive : 0 < 2 ^ d.downsamplePasses := Nat.two_pow_pos _
  have passed :=
    passed_tone byte few settled (show 2 ≤ 2 * 2 ^ d.downsamplePasses by omega)
  have single :
      (passes d.downsamplePasses
        (receive plainDongle d
          (tone byte (2 * 2 ^ d.downsamplePasses))).2.toPassState).lpLen >>>
            d.downsamplePasses = 2 := by
    rw [passed.lpLen]
    change (2 * 2 ^ d.downsamplePasses) >>> d.downsamplePasses = 2
    rw [Nat.shiftRight_eq_div_pow, Nat.mul_div_cancel _ positive]
  have decimated :=
    @decimate_single
      (receive plainDongle d (tone byte (2 * 2 ^ d.downsamplePasses))).2
      (few.trans (by decide)) nine single
  have front := passed.front 0 (by omega)
  rw [← front]
  exact decimated

/-- Settle at a value, and leave one sample of it for the compensation. -/
def symbol (passes : Nat) (byte : UInt8) : List Block :=
  List.replicate (6 * passes) (tone byte 2) ++ [tone byte (2 * 2 ^ passes)]

/-- A sample more in the history of the compensation. -/
theorem feedTones_symbol
    (byte : UInt8)
    {d : Decimator}
    (several : 2 ≤ d.downsamplePasses)
    (few : d.downsamplePasses ≤ 8)
    (nine : d.compFirSize = 9) :
    (feedTones d (symbol d.downsamplePasses byte)).droopIHist =
        shiftHist d.droopIHist (steady (sampleValue byte) d.downsamplePasses) ∧
      (firTerms (cic9Tables.getD d.downsamplePasses []) d.droopIHist).sum >>> (15 : Nat) ∈
        (feedTones d (symbol d.downsamplePasses byte)).assigned := by
  have settled := settled_all byte few (Nat.le_refl d.downsamplePasses)
  have kept :
      ∀ count,
        (feedTones d (List.replicate count (tone byte 2))).droopIHist =
          d.droopIHist := by
    intro count
    induction count with
    | zero => rfl
    | succ count inductionHypothesis =>
        have options := feedTones_options d (List.replicate count (tone byte 2))
        rw [List.replicate_succ', feedTones_concat,
          shortBlock_droop byte (by rw [options.1]; exact several)]
        exact inductionHypothesis
  have same := kept (6 * d.downsamplePasses)
  have options :=
    feedTones_options d (List.replicate (6 * d.downsamplePasses) (tone byte 2))
  unfold symbol
  rw [feedTones_concat]
  generalize
    feedTones d (List.replicate (6 * d.downsamplePasses) (tone byte 2)) = before at *
  rw [← options.1] at settled few ⊢
  rw [← same]
  exact longBlock_compensates byte few (options.2.trans nine) settled

/-- The history of the compensation after some symbols. -/
def historyOf (passes : Nat) (hist : Nat → Int16) (bytes : List UInt8) : Nat → Int16 :=
  bytes.foldl
    (fun hist byte => shiftHist hist (steady (sampleValue byte) passes)) hist

theorem feedTones_symbols
    (bytes : List UInt8)
    {d : Decimator}
    (several : 2 ≤ d.downsamplePasses)
    (few : d.downsamplePasses ≤ 8)
    (nine : d.compFirSize = 9) :
    (feedTones d (bytes.flatMap (symbol d.downsamplePasses))).droopIHist =
      historyOf d.downsamplePasses d.droopIHist bytes := by
  induction bytes generalizing d with
  | nil =>
      rfl
  | cons byte rest inductionHypothesis =>
      have first := (feedTones_symbol byte several few nine).1
      have options := feedTones_options d (symbol d.downsamplePasses byte)
      rw [List.flatMap_cons, feedTones_append]
      generalize feedTones d (symbol d.downsamplePasses byte) = next at *
      rw [← options.1] at several few ⊢
      rw [inductionHypothesis several few (options.2.trans nine), first]
      simp only [historyOf, List.foldl_cons, options.1]

/-- The bytes whose samples have the signs of the coefficients. -/
def loudest : List UInt8 :=
  [0, 0, 255, 0, 255, 0, 255, 0, 0]

/-- What nine samples leave in the history does not depend on what was there. -/
theorem historyOf_loudest
    (passes : Nat)
    (hist : Nat → Int16) :
    ∀ k < 9,
      historyOf passes hist loudest k =
        steady (sampleValue (loudest.getD k 0)) passes := by
  intro k below
  have cases :
      k = 0 ∨ k = 1 ∨ k = 2 ∨ k = 3 ∨ k = 4 ∨ k = 5 ∨ k = 6 ∨ k = 7 ∨ k = 8 := by
    omega
  rcases cases with rfl | rfl | rfl | rfl | rfl | rfl | rfl | rfl | rfl <;> rfl

/-- The sum of the loudest samples. -/
theorem sum_loudest
    {passes : Nat}
    (six : passes = 6 ∨ passes = 7)
    (hist : Nat → Int16) :
    ¬ Fits
      ((firTerms (cic9Tables.getD passes [])
        (historyOf passes hist loudest)).sum >>> (15 : Nat)) := by
  have low : sampleValue 0 = -127 := by decide
  have high : sampleValue 255 = 128 := by decide
  have few : passes ≤ 7 := by omega
  have value :
      ∀ k < 9,
        (historyOf passes hist loudest k).toInt =
          sampleValue (loudest.getD k 0) * 2 ^ passes := by
    intro k below
    rw [historyOf_loudest passes hist k below, steady_toInt _ few]
  unfold firTerms
  rw [value 0 (by decide), value 1 (by decide), value 2 (by decide),
    value 3 (by decide), value 4 (by decide), value 5 (by decide),
    value 6 (by decide), value 7 (by decide), value 8 (by decide)]
  simp only [loudest, List.getD_cons_zero, List.getD_cons_succ, low, high]
  unfold Fits
  rcases six with rfl | rfl
  · decide
  · decide

/-- The loudest samples behind six or seven passes: the sum is beyond an `int16_t`. -/
theorem compensation_truncates
    {d : Decimator}
    (passes : d.downsamplePasses = 6 ∨ d.downsamplePasses = 7)
    (nine : d.compFirSize = 9) :
    ¬ Exact
      (feedTones d
        (loudest.flatMap (symbol d.downsamplePasses) ++
          symbol d.downsamplePasses 0)) := by
  have several : 2 ≤ d.downsamplePasses := by omega
  have few : d.downsamplePasses ≤ 8 := by omega
  have history := feedTones_symbols loudest several few nine
  have options := feedTones_options d (loudest.flatMap (symbol d.downsamplePasses))
  rw [feedTones_append]
  generalize
    feedTones d (loudest.flatMap (symbol d.downsamplePasses)) = before at *
  rw [← options.1] at several few history passes ⊢
  have assigned := (feedTones_symbol 0 several few (options.2.trans nine)).2
  rw [history] at assigned
  intro exact
  exact sum_loudest passes d.droopIHist (exact.assigned _ assigned)

/-! ## The rates -/

/-- The state in which `rtl_fm` starts, with these options. -/
def initialDecimator (downsamplePasses : Nat) (compFirSize : Int) : Decimator where
  lowpassed := fun _ => 0
  lpLen := 0
  lpIHist := fun _ => Taps.zero
  lpQHist := fun _ => Taps.zero
  assigned := []
  downsamplePasses := downsamplePasses
  compFirSize := compFirSize
  droopIHist := fun _ => 0
  droopQHist := fun _ => 0
  sums := []

theorem initialDecimator_atLevel
    (downsamplePasses : Nat)
    (compFirSize : Int) :
    AtLevel (initialDecimator downsamplePasses compFirSize) := by
  have zero : ∀ i, Level i 0 := by
    intro i
    have power : (0 : Int) < 2 ^ i := by positivity
    unfold Level
    simp only [Int16.toInt_zero]
    omega
  have taps : ∀ i, Taps.zero.All (Level i) :=
    fun i => ⟨zero i, zero i, zero i, zero i, zero i, zero i⟩
  constructor
  · exact fun j _ => ⟨taps j, taps j⟩
  · exact fun _ _ => zero _
  · exact fun _ _ => zero _
  · exact ⟨fun _ member => absurd member List.not_mem_nil,
      fun _ member => absurd member List.not_mem_nil⟩

/-- Every stream of bytes, from the start, in blocks that are not empty. -/
def ExactStreams (downsamplePasses : Nat) (compFirSize : Int) : Prop :=
  ∀ (s : DongleState) (blocks : List Block),
    (∀ block ∈ blocks, 2 ≤ block.len) →
      Exact (decimateBlocks s (initialDecimator downsamplePasses compFirSize) blocks).2

/-- When no stream is truncated, by the number of passes. -/
theorem exactStreams_iff
    {downsamplePasses : Nat}
    (most : downsamplePasses ≤ 8)
    (compFirSize : Int) :
    ExactStreams downsamplePasses compFirSize ↔
      downsamplePasses ≤ 7 ∧ (compFirSize = 9 → downsamplePasses ≤ 5) := by
  have wholeSymbol :
      ∀ byte, ∀ block ∈ symbol downsamplePasses byte, 2 ≤ block.len := by
    intro byte block member
    have positive : 0 < 2 ^ downsamplePasses := Nat.two_pow_pos _
    rcases List.mem_append.mp member with short | long
    · rw [List.eq_of_mem_replicate short]
      exact Nat.le_refl 2
    · rw [List.mem_singleton.mp long]
      change 2 ≤ 2 * 2 ^ downsamplePasses
      omega
  constructor
  · intro exactStreams
    have seven : downsamplePasses ≤ 7 := by
      by_contra eighth
      refine eighth_pass_truncates
        (show (initialDecimator downsamplePasses compFirSize).downsamplePasses = 8 by
          change downsamplePasses = 8
          omega)
        (exactStreams plainDongle _ ?_)
      intro block member
      rcases List.mem_append.mp member with earlier | last
      · rw [List.eq_of_mem_replicate earlier]
        exact Nat.le_refl 2
      · rw [List.mem_singleton.mp last]
        exact Nat.le_refl 2
    refine ⟨seven, fun nine => ?_⟩
    by_contra several
    refine compensation_truncates
      (d := initialDecimator downsamplePasses compFirSize)
      (show downsamplePasses = 6 ∨ downsamplePasses = 7 by omega) nine
      (exactStreams plainDongle _ ?_)
    intro block member
    rcases List.mem_append.mp member with earlier | last
    · obtain ⟨byte, -, inSymbol⟩ := List.mem_flatMap.mp earlier
      exact wholeSymbol byte block inSymbol
    · exact wholeSymbol 0 block last
  · rintro ⟨seven, five⟩ s blocks whole
    exact (decimateBlocks_atLevel s ⟨seven, five⟩
      (initialDecimator_atLevel downsamplePasses compFirSize) whole).exact

/-- When the passes number at most `count`. -/
theorem plannedPasses_le_iff
    {firstPasses : Int}
    (first : firstPasses ≠ 0)
    {rate : Nat}
    (positive : 0 < rate)
    (count : Nat) :
    plannedPasses firstPasses rate ≤ count ↔ 1000000 < (2 ^ count - 1) * rate := by
  have quotient :
      1000000 / rate < 2 ^ count - 1 ↔ 1000000 < (2 ^ count - 1) * rate :=
    Nat.div_lt_iff_lt_mul positive
  have doublings : (1000000 / rate + 1).log2 < count ↔ 1000000 / rate + 1 < 2 ^ count :=
    Nat.log2_lt (Nat.succ_ne_zero _)
  have power := Nat.two_pow_pos count
  unfold plannedPasses
  rw [if_pos first, ← quotient]
  generalize 1000000 / rate = quotient at *
  omega

/--
With `-F`, at a rate from 4 kHz to 600 kHz: no stream is truncated exactly when the
rate leaves at most seven passes, and at most five in front of the compensation.
-/
theorem exactStreams_rate_iff
    (freq compFirSize : Int)
    {s : Settings}
    (first : s.downsamplePasses ≠ 0)
    (least : 4000 ≤ s.rateIn)
    (most : s.rateIn ≤ 600000) :
    ∃ planned,
      optimalSettings freq s = some planned ∧
        planned.downsamplePasses ≤ 8 ∧
        (ExactStreams planned.downsamplePasses.toNat compFirSize ↔
          (if compFirSize = 9 then 32259 else 7875) ≤ s.rateIn) := by
  obtain ⟨rate, isRate⟩ := Int.eq_ofNat_of_zero_le (by omega : 0 ≤ s.rateIn)
  have positive : 0 < rate := by omega
  obtain ⟨planned, done, passes, -, -⟩ :=
    optimalSettings_planned freq isRate positive
  have eight := plannedPasses_le_iff first positive 8
  have seven := plannedPasses_le_iff first positive 7
  have five := plannedPasses_le_iff first positive 5
  rw [← passes] at eight seven five
  refine ⟨planned, done, eight.mpr (by omega), ?_⟩
  rw [exactStreams_iff (by omega) compFirSize]
  split <;> omega

/-- At 32 kHz, without the compensation. -/
theorem exactStreams_rate_32k :
    ∃ planned,
      optimalSettings 100000000 (initialSettings 32000 1) = some planned ∧
        planned.downsamplePasses ≤ 8 ∧
        (ExactStreams planned.downsamplePasses.toNat 0 ↔
          (if (0 : Int) = 9 then 32259 else 7875) ≤ (32000 : Int)) :=
  exactStreams_rate_iff 100000000 0 (by decide) (by decide) (by decide)

/-- Nothing but bytes 255 at 4 kHz: the eighth pass assigns 32768. -/
theorem fullScale_truncated :
    ∃ planned,
      optimalSettings 100000000 (initialSettings 4000 1) = some planned ∧
        ¬ Exact
          (decimateBlocks plainDongle
            (initialDecimator planned.downsamplePasses.toNat 0)
            (List.replicate 49 (tone 255 2))).2 := by
  have settings :
      optimalSettings 100000000 (initialSettings 4000 1) =
        some { initialSettings 4000 1 with
          downsamplePasses := 8
          downsample := 256
          outputScale := 1
          freq := 100256000
          rate := 1024000 } := by
    decide
  refine ⟨_, settings, ?_⟩
  rw [show List.replicate 49 (tone 255 2) =
    List.replicate 48 (tone 255 2) ++ [tone 255 2] from rfl]
  exact eighth_pass_truncates rfl

end LibRtlSdr.RtlFm
