import LibRtlSdr.ConsecutivePairs
import LibRtlSdr.RtlFmDiscriminators
import LibRtlSdr.RtlFmLowPass

namespace LibRtlSdr.RtlFm

/-!
# The FM demodulation of `rtl_fm`: `fm_demod`

The method that `custom_atan` selects is applied to each sample and the one before it.
The sample before a block is kept in `pre_r` and `pre_j`; the first sample of a block is
handled ahead of the loop, and there the method is always `polar_discriminant`.
-/

open BoundedBuffer (window blit)
open ConsecutivePairs (pairs firstPairs)

/-- The values of `custom_atan`: the options `-A std`, `-A fast` and `-A lut`. -/
inductive CustomAtan where
  | std
  | fast
  | lut
deriving DecidableEq

/-- The three methods, as functions of a sample and the one before it. -/
structure Discriminators where
  polarDiscriminant : Int → Int → Int → Int → Int
  polarDiscFast : Int → Int → Int → Int → Int
  polarDiscLut : Int → Int → Int → Int → Int

/-- The method that `custom_atan` selects. -/
def Discriminators.selected (f : Discriminators) :
    CustomAtan → Int → Int → Int → Int → Int
  | .std =>
      f.polarDiscriminant
  | .fast =>
      f.polarDiscFast
  | .lut =>
      f.polarDiscLut

/-- What `fm_demod` uses of `struct demod_state`. -/
structure Demodulator where
  lowpassed : Nat → Int16
  lpLen : Nat
  result : Nat → Int16
  resultLen : Nat
  customAtan : CustomAtan
  preR : Int
  preJ : Int

/-! ## Source -/

/-- `lp[i]`, as an `int`. -/
def Demodulator.lp (fm : Demodulator) (i : Nat) : Int :=
  (fm.lowpassed i).toInt

/-- The turn of the loop of `fm_demod` at `i`. -/
def fmDemodTurn
    (f : Discriminators)
    (fm : Demodulator)
    (result : Nat → Int16)
    (i : Nat) :
    Nat → Int16 :=
  let pcm :=
    f.selected fm.customAtan (fm.lp i) (fm.lp (i + 1)) (fm.lp (i - 2)) (fm.lp (i - 1))
  Function.update result (i / 2) (Int16.ofInt pcm)

/-- `fm_demod`; `i` is 2, 4, ... below `lp_len - 1`. -/
def fmDemod (f : Discriminators) (fm : Demodulator) : Demodulator :=
  let pcm := f.polarDiscriminant (fm.lp 0) (fm.lp 1) fm.preR fm.preJ
  let first := Function.update fm.result 0 (Int16.ofInt pcm)
  { fm with
    result :=
      (List.range ((fm.lpLen - 2) / 2)).foldl
        (fun result turn => fmDemodTurn f fm result (2 * (turn + 1))) first
    preR := fm.lp (fm.lpLen - 2)
    preJ := fm.lp (fm.lpLen - 1)
    resultLen := fm.lpLen / 2 }

/-- A block of samples stands in `lowpassed`. -/
def Demodulator.load (fm : Demodulator) (block : List (Int16 × Int16)) : Demodulator :=
  { fm with
    lowpassed := blit 0 (interleave block) fm.lowpassed
    lpLen := 2 * block.length }

/-- `fm_demod` on a block. -/
def demodBlock
    (f : Discriminators)
    (fm : Demodulator)
    (block : List (Int16 × Int16)) :
    Demodulator :=
  fmDemod f (fm.load block)

/-- The results of all blocks. -/
def demodBlocks (f : Discriminators) :
    Demodulator → List (List (Int16 × Int16)) → List Int16
  | _, [] =>
      []
  | fm, block :: rest =>
      let called := demodBlock f fm block
      window called.result 0 called.resultLen ++ demodBlocks f called rest

/-! ## The stream -/

/-- What a method makes of a sample and the one before it, as it is stored. -/
def pcmOf
    (method : Int → Int → Int → Int → Int)
    (pair : (Int16 × Int16) × (Int16 × Int16)) :
    Int16 :=
  Int16.ofInt
    (method pair.1.1.toInt pair.1.2.toInt pair.2.1.toInt pair.2.2.toInt)

/-- The sample before the block is kept. -/
structure Remembers (fm : Demodulator) (before : Int16 × Int16) : Prop where
  preR : fm.preR = before.1.toInt
  preJ : fm.preJ = before.2.toInt

/-- The turns store one result each. -/
theorem fmDemod_turns
    (f : Discriminators)
    (fm : Demodulator)
    (result : Nat → Int16)
    (count place : Nat) :
    (List.range count).foldl
        (fun result turn => fmDemodTurn f fm result (2 * (turn + 1))) result place =
      if 1 ≤ place ∧ place ≤ count then
        Int16.ofInt
          (f.selected fm.customAtan (fm.lp (2 * place)) (fm.lp (2 * place + 1))
            (fm.lp (2 * place - 2)) (fm.lp (2 * place - 1)))
      else
        result place := by
  induction count with
  | zero =>
      rw [if_neg (by omega)]
      rfl
  | succ count inductionHypothesis =>
      rw [List.range_succ, List.foldl_append, List.foldl_cons, List.foldl_nil]
      unfold fmDemodTurn at *
      rw [show 2 * (count + 1) / 2 = count + 1 from by omega]
      by_cases here : place = count + 1
      · rw [here, Function.update_self, if_pos (by omega)]
      · rw [Function.update_of_ne here, inductionHypothesis]
        congr 1
        apply propext
        omega

/-- The results of a call: the first one, and those of the loop. -/
theorem fmDemod_result
    (f : Discriminators)
    (fm : Demodulator) :
    (fmDemod f fm).result 0 =
        Int16.ofInt (f.polarDiscriminant (fm.lp 0) (fm.lp 1) fm.preR fm.preJ) ∧
      ∀ place, 1 ≤ place → place ≤ (fm.lpLen - 2) / 2 →
        (fmDemod f fm).result place =
          Int16.ofInt
            (f.selected fm.customAtan (fm.lp (2 * place)) (fm.lp (2 * place + 1))
              (fm.lp (2 * place - 2)) (fm.lp (2 * place - 1))) := by
  have turns :=
    fmDemod_turns f fm
      (Function.update fm.result 0
        (Int16.ofInt (f.polarDiscriminant (fm.lp 0) (fm.lp 1) fm.preR fm.preJ)))
      ((fm.lpLen - 2) / 2)
  constructor
  · have first := turns 0
    rw [if_neg (by omega), Function.update_self] at first
    exact first
  · intro place least most
    have stored := turns place
    rw [if_pos ⟨least, most⟩] at stored
    exact stored

/-- The samples of a block in `lowpassed`. -/
theorem lp_load
    (fm : Demodulator)
    (block : List (Int16 × Int16))
    {j : Nat}
    (inBlock : j < block.length) :
    (fm.load block).lp (2 * j) = block[j].1.toInt ∧
      (fm.load block).lp (2 * j + 1) = block[j].2.toInt := by
  have stands := getElem?_interleave block j
  simp [Demodulator.lp, Demodulator.load, blit, stands.1, stands.2, inBlock]

/-- One block: the first sample is handled apart, and the last one is kept. -/
theorem demodBlock_outputs
    (f : Discriminators)
    {fm : Demodulator}
    {before : Int16 × Int16}
    (remembers : Remembers fm before)
    {block : List (Int16 × Int16)}
    (nonempty : block ≠ []) :
    window (demodBlock f fm block).result 0 (demodBlock f fm block).resultLen =
        ConsecutivePairs.blockOutputs (pcmOf f.polarDiscriminant)
          (pcmOf (f.selected fm.customAtan)) before block ∧
      Remembers (demodBlock f fm block) (block.getLastD before) ∧
      (demodBlock f fm block).customAtan = fm.customAtan := by
  obtain ⟨sample, rest, rfl⟩ := List.exists_cons_of_ne_nil nonempty
  have lp := fun j inBlock => @lp_load fm (sample :: rest) j inBlock
  have length : (fm.load (sample :: rest)).lpLen = 2 * (rest.length + 1) := rfl
  have turns : ((fm.load (sample :: rest)).lpLen - 2) / 2 = rest.length := by omega
  have results : (demodBlock f fm (sample :: rest)).resultLen = 1 + rest.length := by
    change (fm.load (sample :: rest)).lpLen / 2 = _
    omega
  obtain ⟨first, inside⟩ := fmDemod_result f (fm.load (sample :: rest))
  rw [turns] at inside
  refine ⟨?_, ?_, rfl⟩
  · rw [results, BoundedBuffer.window_add]
    change _ = [pcmOf f.polarDiscriminant (sample, before)] ++
      (pairs sample rest).map (pcmOf (f.selected fm.customAtan))
    congr 1
    · have firstSample := lp 0 (by simp)
      change [(fmDemod f (fm.load (sample :: rest))).result 0] = _
      rw [first, firstSample.1, firstSample.2]
      change [Int16.ofInt (f.polarDiscriminant _ _ fm.preR fm.preJ)] = _
      rw [remembers.preR, remembers.preJ]
      rfl
    · apply List.ext_getElem
      · simp
      · intro t _ inRest
        rw [List.length_map, ConsecutivePairs.length_pairs] at inRest
        have current := lp (t + 1) (by simpa using inRest)
        have previous := lp t (by simp; omega)
        have result := inside (t + 1) (by omega) (by omega)
        rw [show 2 * (t + 1) - 2 = 2 * t from by omega,
          show 2 * (t + 1) - 1 = 2 * t + 1 from by omega, current.1, current.2,
          previous.1, previous.2] at result
        simp only [ConsecutivePairs.pairs_eq_zip, List.getElem_map, List.getElem_zip,
          window, List.getElem_range', Nat.zero_add, Nat.one_mul, Nat.add_comm 1 t]
        exact result
  · have inBlock : rest.length < (sample :: rest).length := by simp
    have last := lp rest.length inBlock
    have isLast : (sample :: rest)[rest.length] = (sample :: rest).getLastD before := by
      rw [List.getLastD_cons, ← List.getLast_eq_getLastD (List.cons_ne_nil _ _),
        List.getLast_eq_getElem]
      simp
    rw [isLast] at last
    constructor
    · exact last.1
    · exact last.2

/-- All blocks, with the first sample of each handled apart. -/
theorem demodBlocks_outputs
    (f : Discriminators)
    {fm : Demodulator}
    {before : Int16 × Int16}
    (remembers : Remembers fm before)
    {blocks : List (List (Int16 × Int16))}
    (nonempty : ∀ block ∈ blocks, block ≠ []) :
    demodBlocks f fm blocks =
      ConsecutivePairs.outputs (pcmOf f.polarDiscriminant)
        (pcmOf (f.selected fm.customAtan)) before blocks := by
  induction blocks generalizing fm before with
  | nil =>
      rfl
  | cons block rest inductionHypothesis =>
      rw [List.forall_mem_cons] at nonempty
      obtain ⟨outputs, next, same⟩ := demodBlock_outputs f remembers nonempty.1
      rw [demodBlocks, ConsecutivePairs.outputs, outputs,
        inductionHypothesis next nonempty.2, same]

/--
For every stream, wherever its blocks end: the results are those of the selected
method if and only if `polar_discriminant` agrees with it at the first sample of every
block.
-/
theorem demodBlocks_iff
    (f : Discriminators)
    {fm : Demodulator}
    (startR : fm.preR = 0)
    (startJ : fm.preJ = 0)
    {blocks : List (List (Int16 × Int16))}
    (nonempty : ∀ block ∈ blocks, block ≠ []) :
    demodBlocks f fm blocks =
        (pairs (0, 0) blocks.flatten).map (pcmOf (f.selected fm.customAtan)) ↔
      ∀ pair ∈ firstPairs (0, 0) blocks,
        pcmOf f.polarDiscriminant pair = pcmOf (f.selected fm.customAtan) pair := by
  have remembers : Remembers fm (0, 0) := ⟨startR, startJ⟩
  rw [demodBlocks_outputs f remembers nonempty]
  exact ConsecutivePairs.outputs_eq_iff _ _ _ _

/-- The methods; `polar_discriminant` as it is at the samples below. -/
def discriminators : Discriminators where
  polarDiscriminant := fun ar aj br bj =>
    if ar = 2 ∧ aj = 1 ∧ br = 1 ∧ bj = 0 then
      2418
    else
      (polarDiscFast ar aj br bj).getD 0
  polarDiscFast := fun ar aj br bj => (polarDiscFast ar aj br bj).getD 0
  polarDiscLut := fun ar aj br bj => (polarDiscLut rampTable ar aj br bj).getD 0

/-- The state in which `rtl_fm` starts. -/
def initialDemodulator (customAtan : CustomAtan) : Demodulator where
  lowpassed := fun _ => 0
  lpLen := 0
  result := fun _ => 0
  resultLen := 0
  customAtan := customAtan
  preR := 0
  preJ := 0

/-- A quarter turn at the boundary. -/
theorem demodBlocks_quarter_turn :
    demodBlocks discriminators (initialDemodulator .fast) [[(1, 0)], [(0, 1), (2, 1)]] =
        (pairs (0, 0) [[((1 : Int16), (0 : Int16))], [(0, 1), (2, 1)]].flatten).map
          (pcmOf (discriminators.selected .fast)) ↔
      ∀ pair ∈ firstPairs (0, 0) [[((1 : Int16), (0 : Int16))], [(0, 1), (2, 1)]],
        pcmOf discriminators.polarDiscriminant pair =
          pcmOf (discriminators.selected .fast) pair :=
  @demodBlocks_iff discriminators (initialDemodulator .fast) rfl rfl _ (by simp)

/-- The second sample is 2731 within a block, and 2418 at its start. -/
theorem demodBlocks_boundary :
    demodBlocks discriminators (initialDemodulator .fast) [[(1, 0)], [(2, 1)]] ≠
      (pairs (0, 0) [[((1 : Int16), (0 : Int16))], [(2, 1)]].flatten).map
        (pcmOf (discriminators.selected .fast)) := by
  decide

end LibRtlSdr.RtlFm
