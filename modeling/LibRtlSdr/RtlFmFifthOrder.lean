import LibRtlSdr.BoundedBuffer
import LibRtlSdr.FiniteMemory
import LibRtlSdr.RtlFmLowPass
import Mathlib.Tactic.Ring

namespace LibRtlSdr.RtlFm

/-!
# The half-band filter of `rtl_fm`: `fifth_order`

A pass halves the rate of a channel: each output weighs the last six samples with
1, 5, 10, 10, 5, 1.  The samples of I and Q alternate in `lowpassed`, and a pass works
in place on one channel.  Behind a block the six values that were read last are kept,
and the first output of the next block shifts them by one; the last of an even number
of samples has not been read then, and never is.
-/

open BoundedBuffer (window blit)

/-- The six values that a pass keeps in its `hist`. -/
structure Taps where
  a : Int16
  b : Int16
  c : Int16
  d : Int16
  e : Int16
  f : Int16
deriving DecidableEq

/-- `(a + (b+e)*5 + (c+d)*10 + f) >> 4`. -/
def Taps.weighted (taps : Taps) : Int :=
  (taps.a.toInt + (taps.b.toInt + taps.e.toInt) * 5 +
    (taps.c.toInt + taps.d.toInt) * 10 + taps.f.toInt) >>> (4 : Nat)

/-- One value more is read. -/
def Taps.push (taps : Taps) (value : Int16) : Taps where
  a := taps.b
  b := taps.c
  c := taps.d
  d := taps.e
  e := taps.f
  f := value

/-- No value has been read. -/
def Taps.zero : Taps where
  a := 0
  b := 0
  c := 0
  d := 0
  e := 0
  f := 0

/-! ## Source -/

/--
The state of `fifth_order`: its data, its variables, and the values that its
assignments to `data` had before they became an `int16_t`.
-/
structure FifthOrder where
  data : Nat → Int16
  taps : Taps
  assigned : List Int

/-- `data[i] = (a + (b+e)*5 + (c+d)*10 + f) >> 4`; `data` begins at `base`. -/
def FifthOrder.assign (s : FifthOrder) (base i : Nat) (taps : Taps) : FifthOrder where
  data := Function.update s.data (base + i) (Int16.ofInt taps.weighted)
  taps := taps
  assigned := s.assigned ++ [taps.weighted]

/-- The turn of the loop of `fifth_order` at `i`. -/
def fifthOrderTurn (base : Nat) (s : FifthOrder) (i : Nat) : FifthOrder :=
  s.assign base (i / 2)
    { a := s.taps.c
      b := s.taps.d
      c := s.taps.e
      d := s.taps.f
      e := s.data (base + (i - 2))
      f := s.data (base + i) }

/-- `fifth_order` on the data from `base` on; `i` is 4, 8, ... below `length`. -/
def fifthOrder
    (data : Nat → Int16)
    (base length : Nat)
    (hist : Taps) :
    FifthOrder :=
  let first :=
    FifthOrder.assign ⟨data, hist, []⟩ base 0
      { a := hist.b
        b := hist.c
        c := hist.d
        d := hist.e
        e := hist.f
        f := data base }
  (List.range ((length - 1) / 4)).foldl
    (fun s turn => fifthOrderTurn base s (4 * (turn + 1))) first

/--
What the passes of `full_demod` use of `struct demod_state`, and the values that were
assigned to an `int16_t`.
-/
structure PassState where
  lowpassed : Nat → Int16
  lpLen : Nat
  lpIHist : Nat → Taps
  lpQHist : Nat → Taps
  assigned : List Int

/-- The body of the loop over the passes in `full_demod`. -/
def passTurn (d : PassState) (i : Nat) : PassState :=
  let first := fifthOrder d.lowpassed 0 (d.lpLen >>> i) (d.lpIHist i)
  let second := fifthOrder first.data 1 (d.lpLen >>> i - 1) (d.lpQHist i)
  { lowpassed := second.data
    lpLen := d.lpLen
    lpIHist := Function.update d.lpIHist i first.taps
    lpQHist := Function.update d.lpQHist i second.taps
    assigned := d.assigned ++ first.assigned ++ second.assigned }

/-- A block of samples stands in front of `lowpassed` when pass `i` begins. -/
def passBlock
    (i : Nat)
    (d : PassState)
    (block : List (Int16 × Int16)) :
    PassState :=
  passTurn
    { d with
      lowpassed := blit 0 (interleave block) d.lowpassed
      lpLen := (2 * block.length) <<< i } i

/-- The samples that pass `i` leaves of a block, for the next pass. -/
def passOutputs (i : Nat) (d : PassState) : List (Int16 × Int16) :=
  iqPairs (window d.lowpassed 0 (d.lpLen >>> (i + 1)))

/-- The samples that pass `i` leaves of all blocks. -/
def passBlocks
    (i : Nat) :
    PassState → List (List (Int16 × Int16)) → List (Int16 × Int16)
  | _, [] =>
      []
  | d, block :: rest =>
      let called := passBlock i d block
      passOutputs i called ++ passBlocks i called rest

/-! ## One channel -/

/-- The samples of a channel. -/
def channel (data : Nat → Int16) (base count : Nat) : List Int16 :=
  (List.range count).map (fun j => data (base + 2 * j))

/-- The values that were read last. -/
def Taps.pushAll (taps : Taps) (values : List Int16) : Taps :=
  values.foldl Taps.push taps

theorem pushAll_append
    (taps : Taps)
    (first second : List Int16) :
    taps.pushAll (first ++ second) = (taps.pushAll first).pushAll second :=
  List.foldl_append

theorem channel_succ
    (data : Nat → Int16)
    (base count : Nat) :
    channel data base (count + 1) =
      channel data base count ++ [data (base + 2 * count)] := by
  unfold channel
  rw [List.range_succ, List.map_append, List.map_singleton]

@[simp] theorem length_channel
    (data : Nat → Int16)
    (base count : Nat) :
    (channel data base count).length = count := by
  simp [channel]

/-- What `count` turns have made of a channel. -/
structure Halved
    (data : Nat → Int16)
    (base : Nat)
    (hist : Taps)
    (count : Nat)
    (s : FifthOrder) : Prop where
  taps : s.taps = hist.pushAll (channel data base (2 * count + 1))
  stored :
    ∀ t ≤ count,
      s.data (base + 2 * t) =
        Int16.ofInt (hist.pushAll (channel data base (2 * t + 1))).weighted
  kept :
    ∀ place, (∀ t ≤ count, place ≠ base + 2 * t) → s.data place = data place
  assigned :
    s.assigned =
      (List.range (count + 1)).map
        (fun t => (hist.pushAll (channel data base (2 * t + 1))).weighted)

/-- The assignment ahead of the loop. -/
theorem Halved.start
    (data : Nat → Int16)
    (base : Nat)
    (hist : Taps) :
    Halved data base hist 0
      (FifthOrder.assign ⟨data, hist, []⟩ base 0 (hist.push (data base))) := by
  have first : hist.pushAll (channel data base 1) = hist.push (data base) := by
    simp [channel, Taps.pushAll]
  constructor
  · exact first.symm
  · intro t atMost
    rw [Nat.le_zero.mp atMost]
    simp [FifthOrder.assign, first]
  · intro place elsewhere
    have other := elsewhere 0 (Nat.le_refl 0)
    simp only [FifthOrder.assign]
    exact Function.update_of_ne (by simpa using other) _ _
  · simp [FifthOrder.assign, first]

/-- A turn reads two samples that no turn has written yet. -/
theorem Halved.turn
    {data : Nat → Int16}
    {base : Nat}
    {hist : Taps}
    {count : Nat}
    {s : FifthOrder}
    (halved : Halved data base hist count s) :
    Halved data base hist (count + 1) (fifthOrderTurn base s (4 * (count + 1))) := by
  have readOdd :
      s.data (base + (4 * (count + 1) - 2)) = data (base + 2 * (2 * count + 1)) := by
    rw [halved.kept _ (fun t atMost => by omega)]
    congr 1
    omega
  have readEven :
      s.data (base + 4 * (count + 1)) = data (base + 2 * (2 * count + 2)) := by
    rw [halved.kept _ (fun t atMost => by omega)]
    congr 1
    omega
  have shifted :
      hist.pushAll (channel data base (2 * (count + 1) + 1)) =
        (s.taps.push (data (base + 2 * (2 * count + 1)))).push
          (data (base + 2 * (2 * count + 2))) := by
    rw [show 2 * (count + 1) + 1 = 2 * count + 1 + 1 + 1 from by omega,
      channel_succ, channel_succ, pushAll_append, pushAll_append, ← halved.taps]
    rfl
  have turned :
      fifthOrderTurn base s (4 * (count + 1)) =
        s.assign base (2 * (count + 1))
          (hist.pushAll (channel data base (2 * (count + 1) + 1))) := by
    unfold fifthOrderTurn
    rw [readOdd, readEven, shifted, show 4 * (count + 1) / 2 = 2 * (count + 1) from by omega]
    rfl
  rw [turned]
  constructor
  · rfl
  · intro t atMost
    simp only [FifthOrder.assign]
    rcases Nat.lt_succ_iff_lt_or_eq.mp (Nat.lt_succ_of_le atMost) with earlier | rfl
    · rw [Function.update_of_ne (by omega)]
      exact halved.stored t (by omega)
    · rw [Function.update_self]
  · intro place elsewhere
    simp only [FifthOrder.assign]
    rw [Function.update_of_ne (elsewhere (count + 1) (Nat.le_refl _))]
    exact halved.kept place (fun t atMost => elsewhere t (by omega))
  · simp only [FifthOrder.assign]
    rw [halved.assigned, List.range_succ (n := count + 1), List.map_append]
    rfl

/-- A call of `fifth_order`. -/
theorem fifthOrder_halved
    (data : Nat → Int16)
    (base length : Nat)
    (hist : Taps) :
    Halved data base hist ((length - 1) / 4) (fifthOrder data base length hist) := by
  unfold fifthOrder
  generalize (length - 1) / 4 = count
  induction count with
  | zero =>
      exact Halved.start data base hist
  | succ count inductionHypothesis =>
      rw [List.range_succ, List.foldl_append]
      exact inductionHypothesis.turn

/-! ## The stream of a channel -/

/-- `x[n]`, with 0 before the start. -/
def sampleAt (stream : List Int16) (n : Int) : Int :=
  if n < 0 then 0 else (stream.getD n.toNat 0).toInt

/-- The value of output `k`. -/
def halfBand (stream : List Int16) (k : Nat) : Int :=
  (sampleAt stream (2 * k - 5) + 5 * sampleAt stream (2 * k - 4) +
    10 * sampleAt stream (2 * k - 3) + 10 * sampleAt stream (2 * k - 2) +
      5 * sampleAt stream (2 * k - 1) + sampleAt stream (2 * k)) >>> (4 : Nat)

/-- The outputs of a stream. -/
def halfBandOutputs (stream : List Int16) : List Int16 :=
  (List.range (stream.length / 2)).map
    (fun k => Int16.ofInt (halfBand stream k))

/-- What is stored behind the values that have been read. -/
def lastOutput (values : List Int16) : Int16 :=
  Int16.ofInt (Taps.zero.pushAll values).weighted

/-- The value `n` places before the end. -/
def fromEnd (values : List Int16) (n : Nat) : Int16 :=
  if n ≤ values.length then values.getD (values.length - n) 0 else 0

theorem fromEnd_concat_one
    (values : List Int16)
    (value : Int16) :
    fromEnd (values ++ [value]) 1 = value := by
  simp [fromEnd]

theorem fromEnd_concat_succ
    (values : List Int16)
    (value : Int16)
    {n : Nat}
    (positive : 0 < n) :
    fromEnd (values ++ [value]) (n + 1) = fromEnd values n := by
  unfold fromEnd
  rw [List.length_append, List.length_singleton]
  by_cases inside : n ≤ values.length
  · rw [if_pos (by omega), if_pos inside,
      show values.length + 1 - (n + 1) = values.length - n from by omega]
    simp only [List.getD_eq_getElem?_getD]
    rw [List.getElem?_append_left (by omega)]
  · rw [if_neg (by omega), if_neg inside]

/-- The taps are the last six values. -/
theorem pushAll_zero
    (values : List Int16) :
    Taps.zero.pushAll values =
      { a := fromEnd values 6
        b := fromEnd values 5
        c := fromEnd values 4
        d := fromEnd values 3
        e := fromEnd values 2
        f := fromEnd values 1 } := by
  induction values using List.reverseRecOn with
  | nil =>
      rfl
  | append_singleton values value inductionHypothesis =>
      rw [pushAll_append, inductionHypothesis, fromEnd_concat_one]
      simp only [fromEnd_concat_succ values value, Nat.succ_pos]
      rfl

/-- Six values leave nothing of those before them. -/
theorem pushAll_recent
    (first second : Taps)
    {recent : List Int16}
    (enough : 6 ≤ recent.length) :
    first.pushAll recent = second.pushAll recent := by
  match recent, enough with
  | _ :: _ :: _ :: _ :: _ :: _ :: _, _ => rfl

theorem lastOutput_recent : FiniteMemory.Recent 6 lastOutput := by
  intro first second recent enough
  unfold lastOutput
  rw [pushAll_append, pushAll_append, pushAll_recent _ _ enough]

/-- A value before the current one, by its place in the stream. -/
theorem fromEnd_take
    {stream : List Int16}
    {k : Nat}
    (inside : 2 * k < stream.length)
    {n : Nat}
    (positive : 0 < n) :
    (fromEnd (stream.take (2 * k + 1)) n).toInt =
      sampleAt stream (2 * k + 1 - n) := by
  have length : (stream.take (2 * k + 1)).length = 2 * k + 1 := by
    rw [List.length_take]
    omega
  unfold fromEnd sampleAt
  rw [length]
  by_cases reached : n ≤ 2 * k + 1
  · rw [if_pos reached, if_neg (by omega),
      show (2 * (k : Int) + 1 - n).toNat = 2 * k + 1 - n from by omega]
    simp only [List.getD_eq_getElem?_getD]
    rw [List.getElem?_take_of_lt (by omega)]
  · rw [if_neg reached, if_pos (by omega)]
    rfl

/-- The taps behind sample `2 * k` weigh output `k`. -/
theorem lastOutput_take
    {stream : List Int16}
    {k : Nat}
    (inside : 2 * k < stream.length) :
    lastOutput (stream.take (2 * k + 1)) = Int16.ofInt (halfBand stream k) := by
  unfold lastOutput halfBand Taps.weighted
  rw [pushAll_zero]
  simp only [fromEnd_take inside (show 0 < 6 from by decide),
    fromEnd_take inside (show 0 < 5 from by decide),
    fromEnd_take inside (show 0 < 4 from by decide),
    fromEnd_take inside (show 0 < 3 from by decide),
    fromEnd_take inside (show 0 < 2 from by decide),
    fromEnd_take inside (show 0 < 1 from by decide)]
  have place :
      ∀ n m : Int, m + 1 = n → 2 * (k : Int) + 1 - n = 2 * k - m :=
    fun n m next => by omega
  rw [place (6 : Nat) 5 rfl, place (5 : Nat) 4 rfl, place (4 : Nat) 3 rfl,
    place (3 : Nat) 2 rfl, place (2 : Nat) 1 rfl, place (1 : Nat) 0 rfl,
    Int.sub_zero]
  congr 2
  ring

/-- The outputs of the whole stream. -/
theorem blockOutputs_lastOutput
    (stream : List Int16) :
    FiniteMemory.blockOutputs lastOutput [] stream = halfBandOutputs stream := by
  unfold FiniteMemory.blockOutputs halfBandOutputs
  apply List.map_congr_left
  intro k inRange
  have inside := List.mem_range.mp inRange
  rw [List.nil_append, lastOutput_take (by omega)]

/-! ## Both channels -/

/-- The pairs at the front of a buffer. -/
theorem iqPairs_window
    (memory : Nat → Int16)
    (start count : Nat) :
    iqPairs (window memory start (2 * count)) =
      (List.range count).map
        (fun t => (memory (start + 2 * t), memory (start + 1 + 2 * t))) := by
  induction count generalizing start with
  | zero =>
      rfl
  | succ count inductionHypothesis =>
      have split :
          window memory start (2 * (count + 1)) =
            memory start :: memory (start + 1) ::
              window memory (start + 2) (2 * count) := by
        rw [Nat.mul_succ, Nat.add_comm, BoundedBuffer.window_add]
        rfl
      rw [split, iqPairs, inductionHypothesis, List.range_succ_eq_map,
        List.map_cons, List.map_map]
      congr 1
      apply List.map_congr_left
      intro t _
      simp only [Function.comp_apply, Nat.succ_eq_add_one]
      congr 2 <;> omega

/-- The samples of I and Q of a block in `lowpassed`. -/
theorem channel_blit
    (memory : Nat → Int16)
    (block : List (Int16 × Int16)) :
    channel (blit 0 (interleave block) memory) 0 block.length =
        block.map Prod.fst ∧
      channel (blit 0 (interleave block) memory) 1 block.length =
        block.map Prod.snd := by
  constructor
  · apply List.ext_getElem (by simp)
    intro j _ inBlock
    rw [List.length_map] at inBlock
    simp [channel, blit, (getElem?_interleave block j).1, inBlock]
  · apply List.ext_getElem (by simp)
    intro j _ inBlock
    rw [List.length_map] at inBlock
    simp [channel, blit, Nat.add_comm 1, (getElem?_interleave block j).2, inBlock]

/-- The first samples of a channel. -/
theorem channel_take
    (data : Nat → Int16)
    (base : Nat)
    {count total : Nat}
    (le : count ≤ total) :
    channel data base count = (channel data base total).take count := by
  unfold channel
  rw [← List.map_take, List.take_range, Nat.min_eq_left le]

/-- What a pass has read of the blocks. -/
structure Reads (i : Nat) (d : PassState) (first second : List Int16) : Prop where
  lpIHist : d.lpIHist i = Taps.zero.pushAll first
  lpQHist : d.lpQHist i = Taps.zero.pushAll second

/-- What a call of `fifth_order` makes of a channel of an even number of samples. -/
theorem fifthOrder_outputs
    {data : Nat → Int16}
    {base length : Nat}
    {before samples : List Int16}
    (isChannel : channel data base samples.length = samples)
    (nonempty : samples ≠ [])
    (even : samples.length % 2 = 0)
    (turns : (length - 1) / 4 + 1 = samples.length / 2) :
    let called := fifthOrder data base length (Taps.zero.pushAll before)
    channel called.data base (samples.length / 2) =
        FiniteMemory.blockOutputs lastOutput before samples ∧
      called.taps = Taps.zero.pushAll (before ++ samples.dropLast) ∧
      ∀ place, place % 2 ≠ base % 2 → called.data place = data place := by
  intro called
  have positive : 0 < samples.length := List.length_pos_iff.mpr nonempty
  have halved := fifthOrder_halved data base length (Taps.zero.pushAll before)
  have read :
      ∀ t, 2 * t + 1 ≤ samples.length →
        (Taps.zero.pushAll before).pushAll (channel data base (2 * t + 1)) =
          Taps.zero.pushAll (before ++ samples.take (2 * t + 1)) := by
    intro t inside
    rw [channel_take data base inside, isChannel, pushAll_append]
  refine ⟨?_, ?_, ?_⟩
  · unfold FiniteMemory.blockOutputs
    apply List.map_congr_left
    intro t inRange
    have inside := List.mem_range.mp inRange
    rw [halved.stored t (by omega), read t (by omega)]
    rfl
  · have last : 2 * ((length - 1) / 4) + 1 = samples.length - 1 := by omega
    rw [halved.taps, read _ (by omega), last, List.dropLast_eq_take]
  · intro place other
    exact halved.kept place (fun t _ => by omega)

/-- One block of a pass. -/
theorem passBlock_outputs
    {i : Nat}
    {d : PassState}
    {first second : List Int16}
    (reads : Reads i d first second)
    {block : List (Int16 × Int16)}
    (nonempty : block ≠ [])
    (even : block.length % 2 = 0) :
    ((passOutputs i (passBlock i d block)).map Prod.fst =
          FiniteMemory.blockOutputs lastOutput first (block.map Prod.fst) ∧
        (passOutputs i (passBlock i d block)).map Prod.snd =
          FiniteMemory.blockOutputs lastOutput second (block.map Prod.snd)) ∧
      Reads i (passBlock i d block) (first ++ (block.map Prod.fst).dropLast)
        (second ++ (block.map Prod.snd).dropLast) := by
  have positive : 0 < block.length := List.length_pos_iff.mpr nonempty
  have shift : (2 * block.length) <<< i >>> i = 2 * block.length :=
    Nat.shiftLeft_shiftRight _ _
  have shiftMore : (2 * block.length) <<< i >>> (i + 1) = 2 * (block.length / 2) := by
    rw [Nat.shiftRight_add, shift, Nat.shiftRight_one]
    omega
  obtain ⟨channelI, channelQ⟩ := channel_blit d.lowpassed block
  generalize onData : blit 0 (interleave block) d.lowpassed = data at *
  -- I
  obtain ⟨outputsI, tapsI, keptI⟩ :=
    @fifthOrder_outputs data 0 (2 * block.length) first (block.map Prod.fst)
      (by rw [List.length_map]; exact channelI)
      (by simpa using nonempty) (by rw [List.length_map]; exact even)
      (by rw [List.length_map]; omega)
  generalize onI :
    fifthOrder data 0 (2 * block.length) (Taps.zero.pushAll first) = halvedI at *
  -- Q stands in the places between
  have untouched : channel halvedI.data 1 block.length = block.map Prod.snd := by
    rw [← channelQ]
    apply List.map_congr_left
    intro j _
    exact keptI _ (by omega)
  obtain ⟨outputsQ, tapsQ, keptQ⟩ :=
    @fifthOrder_outputs halvedI.data 1 (2 * block.length - 1) second
      (block.map Prod.snd)
      (by rw [List.length_map]; exact untouched)
      (by simpa using nonempty) (by rw [List.length_map]; exact even)
      (by rw [List.length_map]; omega)
  generalize onQ :
    fifthOrder halvedI.data 1 (2 * block.length - 1) (Taps.zero.pushAll second) =
      halvedQ at *
  rw [List.length_map] at outputsI outputsQ
  have called :
      passBlock i d block =
        { lowpassed := halvedQ.data
          lpLen := (2 * block.length) <<< i
          lpIHist := Function.update d.lpIHist i halvedI.taps
          lpQHist := Function.update d.lpQHist i halvedQ.taps
          assigned := d.assigned ++ halvedI.assigned ++ halvedQ.assigned } := by
    unfold passBlock passTurn
    simp only [shift, onData, reads.lpIHist, reads.lpQHist, onI, onQ]
  rw [called]
  have pairs :
      passOutputs i
          { lowpassed := halvedQ.data
            lpLen := (2 * block.length) <<< i
            lpIHist := Function.update d.lpIHist i halvedI.taps
            lpQHist := Function.update d.lpQHist i halvedQ.taps
            assigned := d.assigned ++ halvedI.assigned ++ halvedQ.assigned } =
        (List.range (block.length / 2)).map
          (fun t => (halvedQ.data (0 + 2 * t), halvedQ.data (0 + 1 + 2 * t))) := by
    unfold passOutputs
    simp only [shiftMore]
    exact iqPairs_window _ _ _
  rw [pairs, List.map_map, List.map_map]
  refine ⟨⟨?_, ?_⟩, ?_, ?_⟩
  · rw [← outputsI]
    apply List.map_congr_left
    intro t _
    exact keptQ _ (by omega)
  · rw [← outputsQ]
    rfl
  · simpa using tapsI
  · simpa using tapsQ

/-- The passes keep all but the last sample of each block for later ones. -/
theorem passBlocks_outputs
    {i : Nat}
    {d : PassState}
    {first second : List Int16}
    (reads : Reads i d first second)
    {blocks : List (List (Int16 × Int16))}
    (nonempty : ∀ block ∈ blocks, block ≠ [])
    (even : ∀ block ∈ blocks, block.length % 2 = 0) :
    (passBlocks i d blocks).map Prod.fst =
        FiniteMemory.outputs lastOutput List.dropLast first
          (blocks.map (List.map Prod.fst)) ∧
      (passBlocks i d blocks).map Prod.snd =
        FiniteMemory.outputs lastOutput List.dropLast second
          (blocks.map (List.map Prod.snd)) := by
  induction blocks generalizing d first second with
  | nil =>
      exact ⟨rfl, rfl⟩
  | cons block rest inductionHypothesis =>
      rw [List.forall_mem_cons] at nonempty even
      obtain ⟨⟨outputsI, outputsQ⟩, readsNext⟩ :=
        passBlock_outputs reads nonempty.1 even.1
      obtain ⟨laterI, laterQ⟩ := inductionHypothesis readsNext nonempty.2 even.2
      simp only [passBlocks, List.map_append, List.map_cons, FiniteMemory.outputs]
      rw [outputsI, outputsQ, laterI, laterQ]
      exact ⟨rfl, rfl⟩

/-- The outputs of both channels of a stream. -/
def halfBandPairs (stream : List (Int16 × Int16)) : List (Int16 × Int16) :=
  (List.range (stream.length / 2)).map
    (fun k =>
      (Int16.ofInt (halfBand (stream.map Prod.fst) k),
        Int16.ofInt (halfBand (stream.map Prod.snd) k)))

/--
The first three outputs of each block stay the same when the last sample of every
block before it is left out.
-/
def LossHarmless (blocks : List (List Int16)) : Prop :=
  ∀ earlier block later,
    blocks = earlier ++ block :: later →
      ∀ t < 3, 2 * t + 1 < block.length →
        lastOutput ((earlier.map List.dropLast).flatten ++ block.take (2 * t + 1)) =
          lastOutput (earlier.flatten ++ block.take (2 * t + 1))

/-- A channel is filtered as a whole when nothing that is lost is missed. -/
theorem outputs_dropLast_iff
    {blocks : List (List Int16)}
    (even : ∀ block ∈ blocks, block.length % 2 = 0) :
    FiniteMemory.outputs lastOutput List.dropLast [] blocks =
        halfBandOutputs blocks.flatten ↔
      LossHarmless blocks := by
  rw [← blockOutputs_lastOutput, ← FiniteMemory.outputs_whole lastOutput [] even,
    FiniteMemory.outputs_eq_iff lastOutput_recent]
  unfold LossHarmless
  simp only [List.nil_append, FiniteMemory.kept]
  constructor
  · intro same earlier block later split t few
    exact same earlier block later split t (by omega)
  · intro same earlier block later split t few
    exact same earlier block later split t (by omega)

theorem pairs_eq_iff
    {Value : Type}
    (first second : List (Value × Value)) :
    first = second ↔
      first.map Prod.fst = second.map Prod.fst ∧
        first.map Prod.snd = second.map Prod.snd := by
  constructor
  · rintro rfl
    exact ⟨rfl, rfl⟩
  · rintro ⟨sameFirst, sameSecond⟩
    rw [← List.zip_unzip first, ← List.zip_unzip second]
    simp only [List.unzip_eq_map, sameFirst, sameSecond]

/--
For every stream, wherever its blocks of an even number of samples end: a pass has the
outputs of the filter on the whole stream if and only if the last samples of the
blocks, which it never reads, are not missed in the first three outputs behind them.
-/
theorem fifthOrder_streams_iff
    {i : Nat}
    {d : PassState}
    (startsI : d.lpIHist i = Taps.zero)
    (startsQ : d.lpQHist i = Taps.zero)
    {blocks : List (List (Int16 × Int16))}
    (nonempty : ∀ block ∈ blocks, block ≠ [])
    (even : ∀ block ∈ blocks, block.length % 2 = 0) :
    passBlocks i d blocks = halfBandPairs blocks.flatten ↔
      LossHarmless (blocks.map (List.map Prod.fst)) ∧
        LossHarmless (blocks.map (List.map Prod.snd)) := by
  have reads : Reads i d [] [] := ⟨startsI, startsQ⟩
  obtain ⟨outputsI, outputsQ⟩ := passBlocks_outputs reads nonempty even
  have evenMapped :
      ∀ part : Int16 × Int16 → Int16,
        ∀ block ∈ blocks.map (List.map part), block.length % 2 = 0 := by
    intro part block member
    obtain ⟨pairs, inBlocks, rfl⟩ := List.mem_map.mp member
    rw [List.length_map]
    exact even pairs inBlocks
  have specI :
      (halfBandPairs blocks.flatten).map Prod.fst =
        halfBandOutputs (blocks.map (List.map Prod.fst)).flatten := by
    unfold halfBandPairs halfBandOutputs
    rw [List.map_map, ← List.map_flatten, List.length_map]
    rfl
  have specQ :
      (halfBandPairs blocks.flatten).map Prod.snd =
        halfBandOutputs (blocks.map (List.map Prod.snd)).flatten := by
    unfold halfBandPairs halfBandOutputs
    rw [List.map_map, ← List.map_flatten, List.length_map]
    rfl
  rw [pairs_eq_iff, outputsI, outputsQ, specI, specQ,
    outputs_dropLast_iff (evenMapped Prod.fst),
    outputs_dropLast_iff (evenMapped Prod.snd)]

/-- The passes before the first block. -/
def initialPasses : PassState where
  lowpassed := fun _ => 0
  lpLen := 0
  lpIHist := fun _ => Taps.zero
  lpQHist := fun _ => Taps.zero
  assigned := []

/-- A stream in one block. -/
theorem fifthOrder_streams_one_block :
    passBlocks 0 initialPasses [[(160, 320), (480, 640)]] =
      halfBandPairs [[((160 : Int16), (320 : Int16)), (480, 640)]].flatten := by
  apply
    (fifthOrder_streams_iff (i := 0) (d := initialPasses) rfl rfl
      (by simp) (by simp)).mpr
  have single :
      ∀ block : List Int16, LossHarmless [block] := by
    intro block earlier current later split t _ _
    have isFirst : earlier = [] := by
      cases earlier with
      | nil => rfl
      | cons head between => simp at split
    rw [isFirst]
    rfl
  exact ⟨single _, single _⟩

/-- A constant stream in two blocks: the second output is 600 instead of 1600. -/
theorem fifthOrder_loses_samples :
    passBlocks 0 initialPasses
        [[(1600, 0), (1600, 0)], [(1600, 0), (1600, 0)]] ≠
      halfBandPairs
        [[((1600 : Int16), (0 : Int16)), (1600, 0)],
          [(1600, 0), (1600, 0)]].flatten := by
  decide

end LibRtlSdr.RtlFm
