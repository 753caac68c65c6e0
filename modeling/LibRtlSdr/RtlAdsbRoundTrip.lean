import LibRtlSdr.RtlAdsbFrames

namespace LibRtlSdr.RtlAdsb

/-!
# A frame that was sent

A buffer holds one frame behind its preamble, and a constant background.  The
preamble is found, the bits of the frame are decoded for every quality, and what
is decoded behind them are zeros.  Nothing else in the buffer is long enough for
a frame.
-/

/-- The bits of a long frame, or of a short one. -/
inductive IsFrame (bits : List Bool) : Prop where
  | long
      (length : bits.length = longFrame)
      (first : bits.getD 0 false = true)
  | short
      (length : bits.length = shortFrame)
      (first : bits.getD 0 false = false)
      (notZero : byteOf bits 0 ≠ 0)

/-- A frame in a buffer, with the magnitudes of a pulse and of the background. -/
structure Sent where
  bits : List Bool
  p : Nat
  high : Magnitude
  low : Magnitude
  isFrame : IsFrame bits
  audible : 2 ≤ low.value
  louder : low.value < high.value

namespace Sent

/-- The place of the first bit. -/
def start (sent : Sent) : Nat :=
  sent.p + preambleLen

/-- The place behind the last bit. -/
def done (sent : Sent) : Nat :=
  sent.start + 2 * sent.bits.length

/-- Is there a pulse in a half of a bit? -/
def pulse (sent : Sent) (half : Nat) : Bool :=
  let bit := sent.bits.getD (half / 2) false
  if half % 2 = 0 then bit else !bit

/-- The magnitudes of the preamble, of the bits and of the background. -/
def buf (sent : Sent) : Buffer :=
  fun cell =>
    if sent.p ≤ cell ∧ cell < sent.start then
      if cell - sent.p ∈ highSamples then sent.high.value else sent.low.value
    else if sent.start ≤ cell ∧ cell < sent.done then
      if sent.pulse (cell - sent.start) then
        sent.high.value
      else
        sent.low.value
    else
      sent.low.value

section Samples

variable (sent : Sent)

/-- Every cell holds one of the two magnitudes. -/
theorem buf_cases
    (cell : Nat) :
    sent.buf cell = sent.high.value ∨ sent.buf cell = sent.low.value := by
  unfold buf
  split
  · split
    · exact .inl rfl
    · exact .inr rfl
  · split
    · split
      · exact .inl rfl
      · exact .inr rfl
    · exact .inr rfl

theorem low_le_buf
    (cell : Nat) :
    sent.low.value ≤ sent.buf cell := by
  have louder := sent.louder
  rcases sent.buf_cases cell with same | same
  · omega
  · omega

theorem buf_background
    {cell : Nat}
    (outside : cell < sent.p ∨ sent.done ≤ cell) :
    sent.buf cell = sent.low.value := by
  have long : preambleLen = 16 :=
    rfl
  unfold buf
  unfold done at outside ⊢
  unfold start at outside ⊢
  rw [if_neg (by omega), if_neg (by omega)]

theorem buf_preamble
    {sample : Nat}
    (inside : sample < preambleLen) :
    sent.buf (sent.p + sample) =
      if sample ∈ highSamples then sent.high.value else sent.low.value := by
  unfold buf start
  rw [if_pos (by omega), Nat.add_sub_cancel_left]

/-- The two samples of a bit. -/
theorem buf_bit
    {bit : Nat}
    (inside : bit < sent.bits.length) :
    sent.buf (sent.start + 2 * bit) =
        (if sent.bits.getD bit false then
          sent.high.value
        else
          sent.low.value) ∧
      sent.buf (sent.start + 2 * bit + 1) =
        if sent.bits.getD bit false then
          sent.low.value
        else
          sent.high.value := by
  have first : 2 * bit / 2 = bit := by
    omega
  have second : (2 * bit + 1) / 2 = bit := by
    omega
  unfold buf done pulse
  constructor
  · rw [if_neg (by unfold start; omega), if_pos (by omega),
      Nat.add_sub_cancel_left]
    dsimp only
    rw [if_pos (by omega : 2 * bit % 2 = 0), first]
  · rw [if_neg (by unfold start; omega), if_pos (by omega), Nat.add_assoc,
      Nat.add_sub_cancel_left]
    dsimp only
    rw [if_neg (by omega : ¬ (2 * bit + 1) % 2 = 0), second]
    cases sent.bits.getD bit false <;> rfl

end Samples

/-! ## The preamble -/

section Preamble

/-- A preamble begins with a sample above the next, and goes on with one. -/
theorem not_preamble
    {samples : Buffer}
    {i : Nat}
    (quiet :
      samples i ≤ samples (i + 1) ∨ samples (i + 2) ≤ samples (i + 1)) :
    preamble samples i = false := by
  have long : preambleLen = 13 + 1 + 1 + 1 :=
    rfl
  have isHigh : 0 ∈ highSamples := by
    decide
  have isLow : 0 + 1 ∉ highSamples := by
    decide
  have isHighAgain : 0 + 1 + 1 ∈ highSamples := by
    decide
  rw [preamble, long, preambleLoop, preambleLoop, preambleLoop]
  simp only [if_pos isHigh, if_neg isLow, if_pos isHighAgain, Nat.zero_add,
    Nat.add_zero, Nat.reduceAdd]
  split
  · rfl
  · split
    · rfl
    · rw [if_pos (by omega)]

/-- The samples of a preamble are told apart. -/
theorem preambleLoop_of_samples
    {samples : Buffer}
    {i pulse background : Nat}
    (apart : background < pulse)
    {left i2 low high : Nat}
    (isSample :
      ∀ sample,
        i2 ≤ sample → sample < i2 + left →
          samples (i + sample) =
            if sample ∈ highSamples then pulse else background)
    (lowBelow : low < high ∧ low < pulse)
    (backgroundBelow : background < high) :
    preambleLoop samples i left i2 low high = true := by
  induction left generalizing i2 low high with
  | zero =>
      rfl
  | succ left inductionHypothesis =>
      unfold preambleLoop
      rw [isSample i2 (Nat.le_refl _) (by omega)]
      have later :
          ∀ sample,
            i2 + 1 ≤ sample → sample < i2 + 1 + left →
              samples (i + sample) =
                if sample ∈ highSamples then pulse else background :=
        fun sample after before => isSample sample (by omega) (by omega)
      dsimp only
      by_cases isPulse : i2 ∈ highSamples
      · simp only [if_pos isPulse]
        rw [if_neg (by omega)]
        exact inductionHypothesis later ⟨lowBelow.2, lowBelow.2⟩ apart
      · simp only [if_neg isPulse]
        rw [if_neg (by omega)]
        exact inductionHypothesis later ⟨backgroundBelow, apart⟩ backgroundBelow

variable (sent : Sent)

theorem preamble_at :
    preamble sent.buf sent.p = true := by
  have louder := sent.louder
  have first := sent.buf_preamble (by decide : 0 < preambleLen)
  have long : preambleLen = 15 + 1 :=
    rfl
  rw [if_pos (by decide : 0 ∈ highSamples)] at first
  rw [preamble, long, preambleLoop, first]
  rw [if_pos (by decide : 0 ∈ highSamples),
    if_pos (by decide : 0 ∈ highSamples), if_neg (by omega)]
  refine preambleLoop_of_samples louder ?_ (by omega) louder
  intro sample _ before
  exact sent.buf_preamble (by unfold preambleLen; omega)

/-- The preamble is the first one that is found. -/
theorem nextPreamble_first
    {len : Nat}
    (fits : sent.done ≤ len) :
    nextPreamble sent.buf (len - preambleLen - 0) 0 = some sent.p := by
  rw [nextPreamble, List.find?_range_eq_some]
  refine ⟨?_, ?_, fun earlier before => ?_⟩
  · rw [Nat.zero_add]
    exact sent.preamble_at
  · have some : 0 < sent.bits.length := by
      cases sent.isFrame with
      | long length =>
          rw [length]
          decide
      | short length =>
          rw [length]
          decide
    rw [List.mem_range]
    unfold done start at fits
    omega
  · rw [Nat.zero_add, not_preamble]
    · rfl
    · left
      rw [sent.buf_background (.inl before)]
      exact sent.low_le_buf _

end Preamble

/-! ## The bits -/

section Bits

variable (sent : Sent)

/-- Two bits that are sent one after the other fit for every quality. -/
theorem singleManchester_sent
    (quality : Int)
    {pulse background : Nat}
    (apart : background < pulse)
    (before bit : Bool) :
    singleManchester quality
        (if before then pulse else background)
        (if before then background else pulse)
        (if bit then pulse else background)
        (if bit then background else pulse) ≠
      badsample := by
  have notBelow : ¬ pulse < background := by
    omega
  unfold singleManchester badsample
  cases before <;> cases bit <;>
    simp only [apart, notBelow, gt_iff_lt, Bool.false_eq_true, if_false,
      if_true, decide_true, decide_false, not_true_eq_false, not_false_eq_true,
      true_and, false_and, and_true, and_false, Bool.toNat_true,
      Bool.toNat_false] <;>
    split_ifs <;> decide

/-- Behind the frame only zeros are decoded. -/
theorem decodeBits_background
    (options : Options)
    (len : Nat)
    {samples : Buffer}
    {background : Nat}
    {left i : Nat}
    (quiet : ∀ cell, i ≤ cell → samples cell = background)
    (a b : Nat)
    (errors : Int) :
    ∀ bit ∈ (decodeBits options len samples left i a b errors).1,
      bit = false := by
  induction left generalizing i a b errors with
  | zero =>
      intro bit member
      exact absurd member List.not_mem_nil
  | succ left inductionHypothesis =>
      unfold decodeBits
      rw [quiet i (Nat.le_refl _), quiet (i + 1) (Nat.le_succ _)]
      have later : ∀ cell, i + 2 ≤ cell → samples cell = background :=
        fun cell after => quiet cell (by omega)
      have isZero : decide (background > background) = false :=
        decide_eq_false (Nat.lt_irrefl _)
      intro bit member
      split at member
      · dsimp only at member
        rw [isZero] at member
        split at member
        · split at member
          · exact absurd member List.not_mem_nil
          · rcases List.mem_cons.mp member with here | rest
            · exact here
            · exact inductionHypothesis later _ _ _ bit rest
        · rcases List.mem_cons.mp member with here | rest
          · exact here
          · exact inductionHypothesis later _ _ _ bit rest
      · exact absurd member List.not_mem_nil

/-- From every bit on, the bits of the frame are decoded. -/
theorem decodeBits_from
    (options : Options)
    {len : Nat}
    (fits : sent.done ≤ len)
    (left : Nat)
    (before : Bool)
    {bit count : Nat}
    (remain : bit + count = sent.bits.length) :
    ∃ a b,
      decodeBits options len sent.buf (count + left) (sent.start + 2 * bit)
          (if before then sent.high.value else sent.low.value)
          (if before then sent.low.value else sent.high.value) 0 =
        (sent.bits.drop bit ++
            (decodeBits options len sent.buf left sent.done a b 0).1,
          (decodeBits options len sent.buf left sent.done a b 0).2) := by
  induction count generalizing bit before with
  | zero =>
      have all : bit = sent.bits.length := by
        omega
      refine
        ⟨if before then sent.high.value else sent.low.value,
          if before then sent.low.value else sent.high.value, ?_⟩
      rw [Nat.zero_add, all, List.drop_length, List.nil_append]
      rfl
  | succ count inductionHypothesis =>
      have inside : bit < sent.bits.length := by
        omega
      have inBuffer : sent.start + 2 * bit < len - 1 := by
        unfold done at fits
        omega
      rcases sent.buf_bit inside with ⟨first, second⟩
      rcases inductionHypothesis (sent.bits.getD bit false)
          (by omega : bit + 1 + count = sent.bits.length) with
        ⟨a, b, rest⟩
      have fitsBefore :=
        singleManchester_sent options.quality sent.louder before
          (sent.bits.getD bit false)
      have isBit :
          decide
              ((if sent.bits.getD bit false = true then
                  sent.high.value
                else
                  sent.low.value) >
                if sent.bits.getD bit false = true then
                  sent.low.value
                else
                  sent.high.value) =
            sent.bits.getD bit false := by
        have louder := sent.louder
        cases sent.bits.getD bit false with
        | false =>
            exact decide_eq_false (Nat.not_lt.mpr (Nat.le_of_lt louder))
        | true =>
            exact decide_eq_true louder
      refine ⟨a, b, ?_⟩
      rw [Nat.add_right_comm, decodeBits, if_pos inBuffer, first, second,
        if_neg fitsBefore, isBit]
      dsimp only
      rw [Nat.mul_add, ← Nat.add_assoc] at rest
      rw [rest, List.drop_eq_getElem_cons inside,
        List.getD_eq_getElem _ _ inside]
      rfl

/-- The frame is decoded, and zeros behind it. -/
theorem decodeBits_sent
    (options : Options)
    {len : Nat}
    (fits : sent.done ≤ len) :
    ∃ zeros broken,
      (∀ bit ∈ zeros, bit = false) ∧
        decodeBits options len sent.buf len sent.start sent.high.value
            sent.low.value 0 =
          (sent.bits ++ zeros, broken) := by
  have enough : sent.bits.length + (len - sent.bits.length) = len := by
    unfold done at fits
    omega
  rcases sent.decodeBits_from options fits (len - sent.bits.length) true
      (Nat.zero_add _) with
    ⟨a, b, decoded⟩
  rw [enough, List.drop_zero] at decoded
  refine ⟨_, _, ?_, decoded⟩
  exact
    decodeBits_background options len
      (fun cell behind => sent.buf_background (.inr behind)) a b 0

end Bits

/-! ## Behind the frame -/

section Background

variable (sent : Sent)

/-- The place is behind the frame, and finds no preamble. -/
theorem segment_behind
    (options : Options)
    (len : Nat)
    {place : Place}
    (behind : sent.done ≤ place.i) :
    (place.segment options len sent.buf).preambled = false ∧
      len - preambleLen ≤ (place.segment options len sent.buf).start ∧
      place.i ≤ (place.segment options len sent.buf).start := by
  have quiet :
      ∀ cell, place.i < cell →
        place.samples sent.buf cell = sent.low.value := by
    intro cell after
    rw [place.samples_of_lt sent.buf after]
    exact sent.buf_background (.inr (by omega))
  have none :
      nextPreamble (place.samples sent.buf) (len - preambleLen - place.i)
        place.i = none := by
    rw [nextPreamble, List.find?_range_eq_none]
    intro passed _
    rw [not_preamble]
    · rfl
    · right
      rw [quiet _ (by omega), quiet _ (by omega)]
  unfold Place.segment
  dsimp only
  rw [none]
  dsimp only
  exact ⟨rfl, by omega, Nat.le_add_right _ _⟩

/-- Behind the frame bits are decoded at the end of the buffer only. -/
theorem decodeFrom_behind
    {options : Options}
    {len : Nat}
    {rounds : Nat}
    {place : Place}
    (behind : sent.done ≤ place.i)
    {segments : List Segment}
    (decoded :
      decodeFrom options len sent.buf rounds place = some segments) :
    ∀ segment ∈ segments,
      segment.preambled = false ∧ len - preambleLen ≤ segment.start := by
  induction rounds generalizing place segments with
  | zero =>
      unfold decodeFrom at decoded
      split at decoded
      · cases decoded
      · cases decoded
        exact fun _ member => absurd member List.not_mem_nil
  | succ rounds inductionHypothesis =>
      unfold decodeFrom at decoded
      split at decoded
      · rcases Option.map_eq_some_iff.mp decoded with ⟨rest, isRest, rfl⟩
        rcases sent.segment_behind options len behind with
          ⟨notPreambled, atEnd, after⟩
        have later :
            sent.done ≤
              ((place.segment options len sent.buf).next
                (place.samples sent.buf)).i := by
          dsimp only [Segment.next]
          omega
        intro segment member
        rcases List.mem_cons.mp member with rfl | isLater
        · exact ⟨notPreambled, atEnd⟩
        · exact inductionHypothesis later isRest segment isLater
      · cases decoded
        exact fun _ member => absurd member List.not_mem_nil

end Background

end Sent

/-- Segments at the end of the buffer change nothing before it. -/
theorem layout_before
    {len : Nat}
    {segments : List Segment}
    (atEnd :
      ∀ segment ∈ segments,
        segment.preambled = false ∧ len - preambleLen ≤ segment.start)
    (buf : Buffer)
    {cell : Nat}
    (before : cell < len - preambleLen) :
    layout buf segments cell = buf cell := by
  induction segments generalizing buf with
  | nil =>
      rfl
  | cons segment rest inductionHypothesis =>
      rcases atEnd segment List.mem_cons_self with ⟨notPreambled, start⟩
      refine
        (inductionHypothesis
          (fun later member => atEnd later (List.mem_cons_of_mem _ member))
          (segment.lay buf)).trans ?_
      unfold Segment.lay written
      rw [if_neg (by omega), if_neg (by omega), if_neg (by omega),
        if_neg (by rw [notPreambled]; exact Bool.false_ne_true)]

namespace Sent

section Decoded

variable (sent : Sent)

/-- The segment of the frame. -/
structure Decoded (segment : Segment) : Prop where
  start : segment.start = sent.start
  bits :
    ∃ zeros, (∀ bit ∈ zeros, bit = false) ∧ segment.bits = sent.bits ++ zeros
  preambled : segment.preambled = true

/-- The frame is decoded first, and then the end of the buffer. -/
theorem decodes
    {options : Options}
    {len : Nat}
    (fits : sent.done ≤ len)
    {segments : List Segment}
    (decodes : Decodes options len sent.buf segments) :
    ∃ segment rest,
      segments = segment :: rest ∧
        sent.Decoded segment ∧
        ∀ later ∈ rest,
          later.preambled = false ∧ len - preambleLen ≤ later.start := by
  rcases decodes with ⟨rounds, decoded⟩
  rcases sent.decodeBits_sent options fits with
    ⟨zeros, broken, isZero, isFrame⟩
  have isSegment :
      Place.first.segment options len sent.buf =
        ⟨sent.start, sent.bits ++ zeros, true, broken⟩ := by
    have first := sent.nextPreamble_first fits
    have pulse := sent.buf_preamble (by decide : 0 < preambleLen)
    have gap := sent.buf_preamble (by decide : 1 < preambleLen)
    rw [if_pos (by decide : 0 ∈ highSamples), Nat.add_zero] at pulse
    rw [if_neg (by decide : 1 ∉ highSamples)] at gap
    unfold Place.segment
    dsimp only [Place.first, Place.samples]
    rw [if_neg Bool.false_ne_true, first]
    dsimp only
    unfold start at isFrame ⊢
    rw [Nat.zero_add, pulse, gap, isFrame]
  cases rounds with
  | zero =>
      unfold decodeFrom at decoded
      split at decoded
      · cases decoded
      · rename_i outside
        unfold done start preambleLen at fits
        dsimp only [Place.first] at outside
        omega
  | succ rounds =>
      unfold decodeFrom at decoded
      split at decoded
      · rcases Option.map_eq_some_iff.mp decoded with ⟨rest, isRest, rfl⟩
        rw [isSegment] at isRest ⊢
        refine ⟨_, rest, rfl, ⟨rfl, ⟨zeros, isZero, rfl⟩, rfl⟩, ?_⟩
        refine sent.decodeFrom_behind ?_ isRest
        dsimp only [Segment.next]
        rw [List.length_append]
        unfold done
        omega
      · rename_i outside
        unfold done start preambleLen at fits
        dsimp only [Place.first] at outside
        omega

/-- Only the bits of the segment can be taken for bits. -/
theorem Decoded.inside
    {segment : Segment}
    (decoded : sent.Decoded segment)
    {cell : Nat}
    (isBit : segment.lay sent.buf cell ≤ 1) :
    segment.start ≤ cell ∧ cell < segment.start + segment.bits.length := by
  by_contra outside
  have audible := Nat.le_trans sent.audible (sent.low_le_buf cell)
  unfold Segment.lay written at isBit
  rw [if_neg outside] at isBit
  split at isBit
  · exact absurd isBit (by decide)
  · split at isBit
    · exact absurd isBit (by decide)
    · rw [if_pos decoded.preambled] at isBit
      unfold fill at isBit
      split at isBit
      · exact absurd isBit (by decide)
      · omega

end Decoded

end Sent

/-! ## What is displayed -/

/-- The first byte of zeros is zero. -/
theorem byteOf_zeros
    {bits : List Bool}
    (isZero : ∀ bit ∈ bits, bit = false) :
    byteOf bits 0 = 0 := by
  have none : byteOf [] 0 = 0 := by
    decide
  rw [← none]
  apply byteOf_congr
  intro place _
  rw [List.getD_nil, List.getD_eq_getElem?_getD]
  cases found : bits[8 * 0 + place]? with
  | none =>
      rfl
  | some bit =>
      exact isZero bit (List.mem_of_getElem? found)

namespace IsFrame

variable {bits : List Bool}

theorem hasType
    (isFrame : IsFrame bits)
    (others : List Bool) :
    HasType (bits ++ others) := by
  cases isFrame with
  | long length first =>
      refine ⟨by rw [List.length_append, length]; unfold longFrame; omega, ?_⟩
      rw [byteOf_append (by rw [length]; decide)]
      intro zero
      have notHigh := (byteOf_and_high bits).mpr first
      rw [zero] at notHigh
      exact notHigh (by decide)
  | short length first notZero =>
      refine ⟨by rw [List.length_append, length]; unfold shortFrame; omega, ?_⟩
      rw [byteOf_append (by rw [length]; decide)]
      exact notZero

theorem frameLenOf_eq
    (isFrame : IsFrame bits)
    (others : List Bool) :
    frameLenOf (bits ++ others) = bits.length := by
  have ofFirst :
      ∀ {long : Nat},
        0 < long → bits.length = long →
          frameLenOf (bits ++ others) = frameLenOf bits := by
    intro long positive length
    apply frameLenOf_append
    apply List.ne_nil_of_length_pos
    rw [length]
    exact positive
  cases isFrame with
  | long length first =>
      rw [ofFirst (by decide) length, length, frameLenOf, if_pos first]
  | short length first notZero =>
      rw [ofFirst (by decide) length, length, frameLenOf, first,
        if_neg Bool.false_ne_true]

theorem collectedBits_eq
    (isFrame : IsFrame bits)
    (others : List Bool) :
    collectedBits (bits ++ others) = bits := by
  rw [collectedBits, isFrame.frameLenOf_eq, List.take_left]

/-- The next frame begins behind the one that was sent. -/
theorem rest_cases
    (isFrame : IsFrame bits)
    {others : List Bool}
    {offset : Nat}
    (rest : Rest (bits ++ others) offset) :
    offset = 0 ∨ bits.length < offset := by
  induction rest with
  | whole =>
      exact .inl rfl
  | behind earlier more inductionHypothesis =>
      right
      rcases inductionHypothesis with rfl | behind
      · rcases isFrame.hasType others with ⟨long, notZero⟩
        rw [List.drop_zero, advance, if_neg (Nat.not_lt.mpr long),
          if_neg notZero, isFrame.collectedBits_eq]
        omega
      · omega

/-- Of a frame with zeros behind it only the frame is displayed. -/
theorem displays
    (isFrame : IsFrame bits)
    {zeros : List Bool}
    (isZero : ∀ bit ∈ zeros, bit = false)
    {offset : Nat}
    (rest : Rest (bits ++ zeros) offset)
    (displays : Displays ((bits ++ zeros).drop offset)) :
    offset = 0 := by
  rcases isFrame.rest_cases rest with first | behind
  · exact first
  · rw [List.drop_append, List.drop_of_length_le (Nat.le_of_lt behind),
      List.nil_append] at displays
    refine absurd (byteOf_zeros fun bit member => ?_) displays.1.2
    exact isZero bit (List.mem_of_mem_drop member)

end IsFrame

/-- Calls in their order in the buffer, each for the same frame, are one call. -/
theorem eq_singleton_of_ordered
    {calls : List Shown}
    {shown : Shown}
    (ordered :
      calls.Pairwise fun earlier later => earlier.first < later.first)
    (isShown : ∀ call, call ∈ calls ↔ call = shown) :
    calls = [shown] := by
  have member : shown ∈ calls :=
    (isShown shown).mpr rfl
  cases calls with
  | nil =>
      exact absurd member List.not_mem_nil
  | cons call rest =>
      have first := (isShown call).mp List.mem_cons_self
      cases rest with
      | nil =>
          rw [first]
      | cons later others =>
          have second :=
            (isShown later).mp (List.mem_cons_of_mem _ List.mem_cons_self)
          have before := (List.pairwise_cons.mp ordered).1 later
            List.mem_cons_self
          rw [first, second] at before
          exact absurd before (Nat.lt_irrefl _)

namespace Sent

variable (sent : Sent)

/-- The call of `display` for a frame. -/
def shown : Shown where
  frame := bytesOf sent.bits
  len := sent.bits.length
  first := sent.start
  bits := sent.bits.length

/-- The bits of a frame, and what is shown for them with zeros behind. -/
theorem shownFor_eq
    (zeros : List Bool) :
    shownFor (sent.bits ++ zeros) sent.start = sent.shown := by
  unfold shownFor shown
  rw [sent.isFrame.frameLenOf_eq, sent.isFrame.collectedBits_eq]

section Messages

variable {sent}
variable {scan : Scan} {len : Nat} {segment : Segment} {rest : List Segment}

/-- A frame is begun at the first bit. -/
theorem Decoded.begins
    (decoded : sent.Decoded segment)
    (lays : scan.Lays sent.buf (segment :: rest))
    (tracks : scan.Tracks sent.buf len) :
    Begins scan.buf len segment.start segment.bits.length 0 := by
  apply lays.begins tracks List.mem_cons_self decoded.preambled
  apply Rest.whole
  intro none
  rcases decoded.bits with ⟨zeros, _, bits⟩
  have long := (sent.isFrame.hasType zeros).1
  rw [← bits, none] at long
  exact absurd long (by decide)

/-- The frame is displayed. -/
theorem Decoded.shown_mem
    (decoded : sent.Decoded segment)
    (lays : scan.Lays sent.buf (segment :: rest))
    (tracks : scan.Tracks sent.buf len) :
    sent.shown ∈ messages scan.buf len := by
  rcases decoded.bits with ⟨zeros, _, bits⟩
  have same := (lays.holds segment List.mem_cons_self).bitsIn_eq
  have displays : Displays (sent.bits ++ zeros) := by
    refine ⟨sent.isFrame.hasType zeros, ?_⟩
    rw [sent.isFrame.frameLenOf_eq, List.length_append]
    omega
  apply mem_messages_iff.mpr
  refine ⟨_, _, _, decoded.begins lays tracks, ?_, ?_⟩
  · rw [same, List.drop_zero, bits]
    exact displays
  · rw [same, List.drop_zero, bits, Nat.add_zero, decoded.start,
      sent.shownFor_eq]

/-- Before the end of the buffer only the frame holds bits. -/
theorem Decoded.inside_of_isBit
    (decoded : sent.Decoded segment)
    (lays : scan.Lays sent.buf (segment :: rest))
    (atEnd :
      ∀ later ∈ rest,
        later.preambled = false ∧ len - preambleLen ≤ later.start)
    {cell : Nat}
    (before : cell < len - preambleLen)
    (isBit : scan.buf cell ≤ 1) :
    segment.start ≤ cell ∧ cell < segment.start + segment.bits.length := by
  apply decoded.inside sent
  rw [← layout_before atEnd (segment.lay sent.buf) before]
  rw [lays.buf] at isBit
  exact isBit

/-- Nothing else is displayed. -/
theorem Decoded.eq_shown
    (decoded : sent.Decoded segment)
    (lays : scan.Lays sent.buf (segment :: rest))
    (tracks : scan.Tracks sent.buf len)
    (atEnd :
      ∀ later ∈ rest,
        later.preambled = false ∧ len - preambleLen ≤ later.start)
    {call : Shown}
    (member : call ∈ messages scan.buf len) :
    call = sent.shown := by
  rcases mem_messages_iff.mp member with
    ⟨first, count, offset, begins, displays, rfl⟩
  rcases decoded.bits with ⟨zeros, isZero, bits⟩
  have same := (lays.holds segment List.mem_cons_self).bitsIn_eq
  -- A frame has too many bits for the cells at the end of the buffer.
  have long : 55 ≤ count - offset := by
    have enough := displays.2
    rw [List.length_drop, length_bitsIn] at enough
    have short := shortFrame_le_frameLenOf
      ((bitsIn scan.buf first count).drop offset)
    unfold shortFrame at short
    omega
  have before : first < len - preambleLen := by
    have within := begins.stretch.inside
    unfold preambleLen
    omega
  have inside :=
    decoded.inside_of_isBit lays atEnd before
      (begins.stretch.members 0 (by omega))
  rcases begins.stretch.unique (decoded.begins lays tracks).stretch
      ⟨Nat.le_refl first, by omega⟩ inside with
    ⟨rfl, rfl⟩
  have isRest := begins.rest
  rw [same, bits] at isRest displays ⊢
  have none := sent.isFrame.displays isZero isRest displays
  rw [none, List.drop_zero, Nat.add_zero, decoded.start, sent.shownFor_eq]

end Messages

/-- `manchester` ends with one result; the frame that is sent is displayed for it, once. -/
theorem messages_sent
    (options : Options)
    {len : Nat}
    (fits : sent.done ≤ len) :
    ∃ scan,
      (∀ other, Manchester options len sent.buf other ↔ other = scan) ∧
        messages scan.buf len = [sent.shown] := by
  have magnitudes :
      ∀ cell, ∃ magnitude : Magnitude, sent.buf cell = magnitude.value := by
    intro cell
    rcases sent.buf_cases cell with same | same
    · exact ⟨sent.high, same⟩
    · exact ⟨sent.low, same⟩
  rcases manchester_ends magnitudes options len with ⟨scan, ends⟩
  rcases ends.decodes with ⟨segments, isDecoded, lays⟩
  rcases sent.decodes fits isDecoded with
    ⟨segment, rest, rfl, decoded, atEnd⟩
  refine ⟨scan, ends.iff_eq, ?_⟩
  apply eq_singleton_of_ordered (messages_ordered scan.buf len)
  intro call
  constructor
  · exact decoded.eq_shown lays ends.tracks atEnd
  · rintro rfl
    exact decoded.shown_mem lays ends.tracks

/-- An all-call reply, a little above the background. -/
def allCallReply : Sent where
  bits :=
    [0x5D, 0x48, 0x40, 0xD6, 0x00, 0x00, 0x00].flatMap fun byte : Byte =>
      (List.range 8).map byte.getMsbD
  p := 3
  high := ⟨9, 130, 127, by decide⟩
  low := ⟨2, 128, 128, by decide⟩
  isFrame := .short (by decide) (by decide) (by decide)
  audible := by decide
  louder := by decide

theorem messages_sent_allCallReply :
    ∃ scan,
      (∀ other,
        Manchester ⟨10, 5⟩ 140 allCallReply.buf other ↔ other = scan) ∧
        messages scan.buf 140 = [allCallReply.shown] :=
  messages_sent allCallReply ⟨10, 5⟩ (by decide)

end Sent

end LibRtlSdr.RtlAdsb
