import LibRtlSdr.HpsdrSendIq
import LibRtlSdr.StreamingFir
import Mathlib.Algebra.BigOperators.Pi
import Mathlib.Algebra.Field.Rat
import Mathlib.Algebra.Module.Prod
import Mathlib.Tactic.NormNum

namespace LibRtlSdr.Hpsdr

/-!
# Filter and decimate: `down_loop`

`downsample` calls `down_loop` twice.  A pass slides a window over the floats of
its buffer, two floats at a time, sums the window with the filter coefficients,
keeps one output in `dsample`, and moves floats from the end of the buffer to its
front for the next call.  This is the loop without vector instructions, over the
elements of a commutative ring in place of floats.
-/

open BoundedBuffer (window blit)

/-- What `down_loop` sets up from the number of the pass. -/
structure DownPass where
  iqSwap : Bool
  dsample : Nat
  count : Nat
  coeffLen : Nat

/-- First pass: from 1536 kHz to 768 kHz. -/
def firstPass : DownPass where
  iqSwap := true
  dsample := 2
  count := rtlReadCount
  coeffLen := coeff3072H16Length

/-- The decimation of the second pass. -/
def dsampleOf (outputRate : OutputRate) : Nat :=
  match outputRate with
  | .hz48000 => downsample192 * 2
  | .hz96000 => downsample192
  | .hz192000 => downsample192 / 2
  | .hz384000 => downsample192 / 4

/-- Second pass: from 768 kHz to the output rate. -/
def secondPass (lengthFir : Nat) (outputRate : OutputRate) : DownPass where
  iqSwap := false
  dsample := dsampleOf outputRate
  count := rtlReadCount / 2
  coeffLen := lengthFir

section Loop

variable {R : Type} [CommRing R]

/-- The inner loop: `sum1` and `sum2` over the window at `pSrc`. -/
def firSums
    (coeff : Nat → R)
    (coeffLen : Nat)
    (pSrc : Nat → R) :
    R × R :=
  (List.range coeffLen).foldl
    (fun sums i =>
      (sums.1 + pSrc (2 * i) * coeff i,
        sums.2 + pSrc (2 * i + 1) * coeff i))
    (0, 0)

/-- The outer loop: the pairs stored at `out`, for `j = 0, 2, ..`. -/
def downOutput
    (pass : DownPass)
    (coeff : Nat → R)
    (buf : Nat → R) :
    List (R × R) :=
  (List.range (pass.count / 2)).foldl
    (fun out turn =>
      let j := 2 * turn
      let sums := firSums coeff pass.coeffLen (fun i => buf (j + i))
      if (j + 2) / 2 % pass.dsample = 0 then
        out ++ [if pass.iqSwap then (sums.2, sums.1) else (sums.1, sums.2)]
      else
        out)
    []

/-- The `memmove` at the end: `coeff_len * 2` floats go to the front. -/
def moveTail
    {Cell : Type}
    (pass : DownPass)
    (buf : Nat → Cell) :
    Nat → Cell :=
  blit 0
    (window buf (pass.count - pass.coeffLen * 2) (pass.coeffLen * 2)) buf

/-- `iq_buf_final` and the outputs of the calls so far. -/
structure SecondPassState (R : Type) where
  iqBufFinal : Nat → R
  outputs : List (R × R)

/-- The first pass stores its block behind the history, at `iq_buf_final[64]`. -/
def storeBlock (block buf : Nat → R) : Nat → R :=
  fun k =>
    if coeff1536H32Length * 2 ≤ k ∧
        k < coeff1536H32Length * 2 + rtlReadCount / 2 then
      block (k - coeff1536H32Length * 2)
    else
      buf k

/-- A block is stored and `down_loop (rcb, 2)` is called, with a filter of 32 taps. -/
def secondPassCall
    (coeff : Nat → R)
    (outputRate : OutputRate)
    (state : SecondPassState R)
    (block : Nat → R) :
    SecondPassState R :=
  let pass := secondPass coeff1536H32Length outputRate
  let stored := storeBlock block state.iqBufFinal
  { iqBufFinal := moveTail pass stored
    outputs := state.outputs ++ downOutput pass coeff stored }

/-- The outputs of a sequence of calls, one after the other. -/
def secondPassOutputs
    (coeff : Nat → R)
    (outputRate : OutputRate)
    (iqBufFinal : Nat → R)
    (blocks : List (Nat → R)) :
    List (R × R) :=
  (blocks.foldl (secondPassCall coeff outputRate)
    { iqBufFinal := iqBufFinal, outputs := [] }).outputs

/-! ## The loop is a decimating filter -/

/-- Floats as I/Q pairs. -/
def pairsOf {Cell : Type} (buf : Nat → Cell) : Nat → Cell × Cell :=
  fun k => (buf (2 * k), buf (2 * k + 1))

/-- The inner loop is the filter on pairs. -/
theorem firSums_eq_tap
    (coeff : Nat → R)
    (coeffLen start : Nat)
    (buf : Nat → R) :
    firSums coeff coeffLen (fun i => buf (2 * start + i)) =
      StreamingFir.tap coeff coeffLen (pairsOf buf) start := by
  unfold firSums StreamingFir.tap
  induction coeffLen with
  | zero =>
      rfl
  | succ coeffLen inductionHypothesis =>
      have even :
          2 * start + 2 * coeffLen = 2 * (start + coeffLen) := by
        omega
      rw [List.range_succ, List.foldl_append, inductionHypothesis,
        Finset.sum_range_succ]
      simp only [List.foldl_cons, List.foldl_nil, pairsOf, even,
        ← Nat.add_assoc]
      ext
      · simp [mul_comm]
      · simp [mul_comm]

/-- The outer loop has the outputs of the emitted windows. -/
theorem downOutput_eq_map
    (pass : DownPass)
    (noSwap : pass.iqSwap = false)
    (coeff : Nat → R)
    (buf : Nat → R) :
    downOutput pass coeff buf =
      (StreamingFir.emitted pass.dsample (pass.count / 2)).map
        (StreamingFir.tap coeff pass.coeffLen (pairsOf buf)) := by
  unfold downOutput StreamingFir.emitted
  induction pass.count / 2 with
  | zero =>
      rfl
  | succ turns inductionHypothesis =>
      have position : (2 * turns + 2) / 2 = turns + 1 := by omega
      rw [List.range_succ, List.foldl_append, inductionHypothesis,
        List.filter_append, List.map_append]
      simp only [List.foldl_cons, List.foldl_nil, position, noSwap,
        firSums_eq_tap]
      by_cases isEmitted : (turns + 1) % pass.dsample = 0
      · simp [isEmitted]
      · simp [isEmitted]

/-- The decimation divides the pairs of a block. -/
theorem dsampleOf_dvd (outputRate : OutputRate) :
    dsampleOf outputRate ∣ 16 := by
  cases outputRate <;> decide

/-- The second pass has as many outputs as are then counted as new samples. -/
theorem length_secondPass_output
    (coeff : Nat → R)
    (outputRate : OutputRate)
    (buf : Nat → R) :
    (downOutput (secondPass coeff1536H32Length outputRate) coeff
        buf).length = addedSamples false outputRate := by
  have turns : rtlReadCount / 2 / 2 = 16 * 256 := by decide
  have inTurn :
      256 * (StreamingFir.emitted (dsampleOf outputRate) 16).length =
        addedSamples false outputRate := by
    cases outputRate <;> decide
  rw [downOutput_eq_map _ rfl, List.length_map, secondPass, turns,
    StreamingFir.length_emitted_mul (dsampleOf_dvd outputRate), inTurn]

/-! ## Blocks and boundaries of the second pass -/

omit [CommRing R] in
/-- After the store, the buffer is the history followed by the block. -/
theorem pairsOf_storeBlock
    (block buf : Nat → R)
    {k : Nat}
    (inBuffer : k < 32 + 4096) :
    pairsOf (storeBlock block buf) k =
      StreamingFir.joined 32 (pairsOf buf) (pairsOf block) k := by
  have historyFloats : coeff1536H32Length * 2 = 64 := rfl
  have blockFloats : rtlReadCount / 2 = 8192 := rfl
  unfold pairsOf storeBlock StreamingFir.joined
  rw [historyFloats, blockFloats]
  by_cases inHistory : k < 32
  · rw [if_pos inHistory, if_neg (by omega), if_neg (by omega)]
  · have even : 2 * k - 64 = 2 * (k - 32) := by omega
    have odd : 2 * k + 1 - 64 = 2 * (k - 32) + 1 := by omega
    rw [if_neg inHistory, if_pos (by omega), if_pos (by omega), even, odd]

/--
The history for the next call starts at pair 4032 of the block: the `memmove`
counts the floats from the start of the buffer, where the history is.
-/
def carriedTail (block : Nat → R × R) : Nat → R × R :=
  fun k => block (4032 + k)

omit [CommRing R] in
theorem pairsOf_moveTail
    (outputRate : OutputRate)
    (block buf : Nat → R)
    {k : Nat}
    (inHistory : k < 32) :
    pairsOf
        (moveTail (secondPass coeff1536H32Length outputRate)
          (storeBlock block buf)) k =
      carriedTail (pairsOf block) k := by
  have historyFloats : coeff1536H32Length * 2 = 64 := rfl
  have blockFloats : rtlReadCount / 2 = 8192 := rfl
  have source : 8192 - 64 = 8128 := rfl
  have moved (index : Nat) (below : index < 64) :
      moveTail (secondPass coeff1536H32Length outputRate)
          (storeBlock block buf) index =
        block (8064 + index) := by
    have back : 8128 + index - 64 = 8064 + index := by omega
    simp only [moveTail, secondPass, historyFloats, blockFloats, source,
      blit, Nat.zero_le, if_true, Nat.sub_zero, window,
      List.getElem?_map, List.getElem?_range' below, Option.map_some,
      Option.getD_some, storeBlock, Nat.one_mul, back]
    exact if_pos (by omega)
  have even : 8064 + 2 * k = 2 * (4032 + k) := by omega
  have odd : 8064 + (2 * k + 1) = 2 * (4032 + k) + 1 := by omega
  unfold carriedTail pairsOf
  rw [moved _ (by omega), moved _ (by omega), even, odd]

/-- A sequence of calls filters block by block, with this history. -/
theorem secondPassOutputs_eq_blockOutputs
    (coeff : Nat → R)
    (outputRate : OutputRate)
    (blocks : List (Nat → R))
    (state : SecondPassState R) :
    (blocks.foldl (secondPassCall coeff outputRate) state).outputs =
      state.outputs ++
        StreamingFir.blockOutputs coeff 32 (dsampleOf outputRate) 4096
          carriedTail (pairsOf state.iqBufFinal) (blocks.map pairsOf) := by
  induction blocks generalizing state with
  | nil =>
      simp [StreamingFir.blockOutputs]
  | cons block rest inductionHypothesis =>
      have turns : rtlReadCount / 2 / 2 = 4096 := by decide
      have sameOutputs :
          downOutput (secondPass coeff1536H32Length outputRate) coeff
              (storeBlock block state.iqBufFinal) =
            (StreamingFir.emitted (dsampleOf outputRate) 4096).map
              (StreamingFir.tap coeff 32
                (StreamingFir.joined 32 (pairsOf state.iqBufFinal)
                  (pairsOf block))) := by
        rw [downOutput_eq_map _ rfl, secondPass, turns]
        apply List.map_congr_left
        intro m member
        have below := (StreamingFir.mem_emitted_iff.mp member).1
        apply StreamingFir.tap_congr
        intro i inWindow
        have inTaps : i < 32 := inWindow
        exact pairsOf_storeBlock block state.iqBufFinal (by omega)
      rw [List.foldl_cons, inductionHypothesis, List.map_cons,
        StreamingFir.blockOutputs, secondPassCall, sameOutputs,
        List.append_assoc]
      congr 2
      apply StreamingFir.blockOutputs_congr_history
      intro k inHistory
      exact pairsOf_moveTail outputRate block state.iqBufFinal inHistory

/--
At the end of a block, the partial sums over the carried samples are those over
the true last samples, for all windows of the next block that have an output.
-/
def BoundaryAgrees
    (coeff : Nat → R)
    (outputRate : OutputRate)
    (block : Nat → R) : Prop :=
  ∀ p < 32, (p + 1) % dsampleOf outputRate = 0 →
    ∀ component < 2,
      ∑ i ∈ Finset.range (32 - p),
          coeff i * block (2 * (4032 + (p + i)) + component) =
        ∑ i ∈ Finset.range (32 - p),
          coeff i * block (2 * (4064 + (p + i)) + component)

/-- A partial sum over pairs is one over each component. -/
theorem tap_pairs
    (coeff : Nat → R)
    (length start offset : Nat)
    (block : Nat → R) :
    StreamingFir.tap coeff length
        (fun k => pairsOf block (offset + k)) start =
      (∑ i ∈ Finset.range length,
          coeff i * block (2 * (offset + (start + i)) + 0),
        ∑ i ∈ Finset.range length,
          coeff i * block (2 * (offset + (start + i)) + 1)) := by
  unfold StreamingFir.tap
  ext
  · simp [pairsOf, Prod.fst_sum]
  · simp [pairsOf, Prod.snd_sum]

theorem boundaryAgrees_iff
    (coeff : Nat → R)
    (outputRate : OutputRate)
    (block : Nat → R) :
    BoundaryAgrees coeff outputRate block ↔
      StreamingFir.SameOverlap coeff 32 (dsampleOf outputRate)
        (carriedTail (pairsOf block))
        (StreamingFir.blockEnd 32 4096 (pairsOf block)) := by
  have window (p : Nat) :
      StreamingFir.tap coeff (32 - p) (carriedTail (pairsOf block)) p =
          StreamingFir.tap coeff (32 - p)
            (StreamingFir.blockEnd 32 4096 (pairsOf block)) p ↔
        ∀ component < 2,
          ∑ i ∈ Finset.range (32 - p),
              coeff i * block (2 * (4032 + (p + i)) + component) =
            ∑ i ∈ Finset.range (32 - p),
              coeff i * block (2 * (4064 + (p + i)) + component) := by
    have carried := tap_pairs coeff (32 - p) p 4032 block
    have trueEnd := tap_pairs coeff (32 - p) p 4064 block
    unfold carriedTail StreamingFir.blockEnd
    rw [carried, trueEnd, Prod.mk.injEq]
    constructor
    · rintro ⟨first, second⟩ component isComponent
      have either : component = 0 ∨ component = 1 := by omega
      rcases either with isFirst | isSecond
      · rw [isFirst]
        exact first
      · rw [isSecond]
        exact second
    · intro both
      exact ⟨both 0 (by decide), both 1 (by decide)⟩
  unfold BoundaryAgrees StreamingFir.SameOverlap
  simp only [StreamingFir.mem_emitted_iff, and_imp, window]

/-- A buffer with nothing but zeros in front of the block. -/
def zeroHistory (rest : Nat → R) : Nat → R :=
  fun k => if k < coeff1536H32Length * 2 then 0 else rest k

/-- The outputs follow the stream exactly when each carried history does. -/
theorem secondPassOutputs_eq_streamOutputs_iff
    (coeff : Nat → R)
    (outputRate : OutputRate)
    (rest : Nat → R)
    (blocks : List (Nat → R)) :
    secondPassOutputs coeff outputRate (zeroHistory rest) blocks =
        StreamingFir.streamOutputs coeff 32 (dsampleOf outputRate) 4096
          (fun _ => 0) (blocks.map pairsOf) ↔
      ∀ block ∈ (blocks.map pairsOf).dropLast,
        StreamingFir.SameOverlap coeff 32 (dsampleOf outputRate)
          (carriedTail block) (StreamingFir.blockEnd 32 4096 block) := by
  have historyFloats : coeff1536H32Length * 2 = 64 := rfl
  have period : dsampleOf outputRate ∣ 4096 :=
    (dsampleOf_dvd outputRate).trans (by decide)
  have sameStart :
      StreamingFir.SameOverlap coeff 32 (dsampleOf outputRate)
        (pairsOf (zeroHistory rest)) (fun _ => 0) := by
    intro m member
    have below := (StreamingFir.mem_emitted_iff.mp member).1
    apply StreamingFir.tap_congr
    intro i inWindow
    unfold pairsOf zeroHistory
    rw [historyFloats, if_pos (by omega), if_pos (by omega)]
    rfl
  unfold secondPassOutputs
  rw [secondPassOutputs_eq_blockOutputs, List.nil_append]
  exact StreamingFir.blockOutputs_eq_streamOutputs_iff period (by decide)
    sameStart _

/--
The outputs of a sequence of calls are those of the filter on the concatenated
stream, with 32 zeros in front, exactly when the boundary condition holds at the
end of every block but the last.
-/
theorem secondPass_streams_iff
    (coeff : Nat → R)
    (outputRate : OutputRate)
    (rest : Nat → R)
    (blocks : List (Nat → R)) :
    secondPassOutputs coeff outputRate (zeroHistory rest) blocks =
        StreamingFir.streamOutputs coeff 32 (dsampleOf outputRate) 4096
          (fun _ => 0) (blocks.map pairsOf) ↔
      ∀ block ∈ blocks.dropLast, BoundaryAgrees coeff outputRate block := by
  rw [secondPassOutputs_eq_streamOutputs_iff, ← List.map_dropLast,
    List.forall_mem_map]
  simp only [boundaryAgrees_iff]

end Loop

/-- `coeff1536_384_H_32`: the taps for an output rate of 384 kHz. -/
def coeff1536For384 (i : Nat) : ℚ :=
  ([-0.018813375437660432, -0.006245528066330151, 0.02225837116892513,
    0.02542479094783578, -0.005640794972019027, -0.012689256912544498,
    0.022189644598742682, 0.02694074050135046, -0.02278035343087979,
    -0.031038461875351708, 0.038216616239274616, 0.050231714731015474,
    -0.06031941099781234, -0.08957130195006367, 0.14839312870816138,
    0.45191266878865377, 0.45191266878865377, 0.14839312870816138,
    -0.08957130195006367, -0.06031941099781234, 0.050231714731015474,
    0.038216616239274616, -0.031038461875351708, -0.02278035343087979,
    0.02694074050135046, 0.022189644598742682, -0.012689256912544498,
    -0.005640794972019027, 0.02542479094783578, 0.02225837116892513,
    -0.006245528066330151, -0.018813375437660432] : List ℚ).getD i 0

/-- A block whose last pair alone is not zero. -/
def lastPairBlock : Nat → ℚ :=
  fun k => if k = 8190 then 1 else 0

/--
At 384 kHz, the block with a single pair at its end and a block of zeros: the
outputs are not those of the filter on the stream.
-/
theorem secondPass_not_streams :
    secondPassOutputs coeff1536For384 .hz384000 (zeroHistory (fun _ => 0))
        [lastPairBlock, fun _ => 0] ≠
      StreamingFir.streamOutputs coeff1536For384 32
        (dsampleOf .hz384000) 4096 (fun _ => 0)
        ([lastPairBlock, fun _ => 0].map pairsOf) := by
  intro same
  have boundary :=
    (secondPassOutputs_eq_streamOutputs_iff _ _ _ _).mp same
      (pairsOf lastPairBlock) List.mem_cons_self
  -- Window 31 has one sample of the block in it, the last one.
  have lastWindow :=
    boundary 31 (StreamingFir.mem_emitted_iff.mpr (by decide))
  have firstTap : coeff1536For384 0 = 0 := by
    have component := congrArg Prod.fst lastWindow
    simpa [StreamingFir.tap, carriedTail, StreamingFir.blockEnd, pairsOf,
      lastPairBlock] using component.symm
  norm_num [coeff1536For384] at firstTap

end LibRtlSdr.Hpsdr
