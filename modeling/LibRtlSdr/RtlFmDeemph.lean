import LibRtlSdr.BoundedBuffer
import LibRtlSdr.CheckedInt
import LibRtlSdr.Following
import LibRtlSdr.RtlFmLowPass

namespace LibRtlSdr.RtlFm

/-!
# The de-emphasis of `rtl_fm`: `deemph_filter`

`avg`, which is kept from block to block, moves to each sample by the rounded
`deemph_a`-th part of the distance, and is stored over the sample.
-/

open BoundedBuffer (window blit)
open CheckedInt (add? sub? div?)
open Following (Toward Follows Spans)

/--
What `deemph_filter` uses of `struct demod_state`, its static `avg`, and the values of
`avg` that were cast to an `int16_t`.
-/
structure Deemphasis where
  result : Nat → Int16
  resultLen : Nat
  deemphA : Int
  avg : Int
  assigned : List Int

/-! ## Source -/

/-- The turn of the loop of `deemph_filter` at `i`. -/
def deemphTurn (fm : Deemphasis) (i : Nat) : Option Deemphasis := do
  let d ← sub? (fm.result i).toInt fm.avg
  let half ← div? fm.deemphA 2
  let rounded ← (if 0 < d then add? d half else sub? d half)
  let step ← div? rounded fm.deemphA
  let avg ← add? fm.avg step
  return {
    fm with
    result := Function.update fm.result i (Int16.ofInt avg)
    avg := avg
    assigned := fm.assigned ++ [avg]
  }

/-- `deemph_filter`. -/
def deemphFilter (fm : Deemphasis) : Option Deemphasis :=
  (List.range fm.resultLen).foldlM deemphTurn fm

/-- A block of audio stands in `result`. -/
def Deemphasis.load (fm : Deemphasis) (block : List Int16) : Deemphasis :=
  { fm with
    result := blit 0 block fm.result
    resultLen := block.length }

/-- `deemph_filter` on a block. -/
def deemphBlock (fm : Deemphasis) (block : List Int16) : Option Deemphasis :=
  deemphFilter (fm.load block)

/-- The results of all blocks, and the last state. -/
def deemphBlocks :
    Deemphasis → List (List Int16) → Option (List Int16 × Deemphasis)
  | fm, [] =>
      some ([], fm)
  | fm, block :: rest => do
      let called ← deemphBlock fm block
      let later ← deemphBlocks called rest
      return (window called.result 0 called.resultLen ++ later.1, later.2)

/-! ## One sample -/

/-- The distance to a sample, ready for the rounded division. -/
def roundedDistance (deemphA d : Int) : Int :=
  if 0 < d then d + deemphA.tdiv 2 else d - deemphA.tdiv 2

/-- `avg` after a sample. -/
def deemphasized (deemphA avg sample : Int) : Int :=
  avg + (roundedDistance deemphA (sample - avg)).tdiv deemphA

/-- The rounded part of a distance is no more than the distance. -/
theorem deemphasized_toward
    {deemphA : Int}
    (positive : 1 ≤ deemphA)
    (avg sample : Int) :
    Toward avg sample (deemphasized deemphA avg sample) := by
  have half : deemphA.tdiv 2 = deemphA / 2 :=
    Int.tdiv_eq_ediv_of_nonneg (by omega)
  unfold deemphasized roundedDistance
  rw [half]
  by_cases up : 0 < sample - avg
  · rw [if_pos up]
    have lower : 0 ≤ (sample - avg + deemphA / 2).tdiv deemphA :=
      Int.tdiv_nonneg (by omega) (by omega)
    have upper : (sample - avg + deemphA / 2).tdiv deemphA ≤ sample - avg := by
      have multiple := le_mul_of_one_le_right up.le positive
      apply CheckedInt.tdiv_le_of_lt_mul (by omega) (by omega)
      rw [Int.add_mul]
      omega
    exact .inl ⟨by omega, by omega⟩
  · rw [if_neg up]
    have upper : (sample - avg - deemphA / 2).tdiv deemphA ≤ 0 :=
      CheckedInt.tdiv_le_of_le_mul (by omega) (by omega)
    have lower : sample - avg ≤ (sample - avg - deemphA / 2).tdiv deemphA := by
      have multiple :=
        mul_le_mul_of_nonpos_left positive (show sample - avg ≤ 0 by omega)
      apply CheckedInt.le_tdiv_of_mul_lt (by omega) (by omega)
      rw [Int.sub_mul]
      omega
    exact .inr ⟨by omega, by omega⟩

/-- From an `int16_t` an average moves to an `int16_t`. -/
theorem deemphasized_fits
    {deemphA avg : Int}
    (positive : 1 ≤ deemphA)
    (small : Fits avg)
    (sample : Int16) :
    Fits (deemphasized deemphA avg sample.toInt) := by
  have toward := deemphasized_toward positive avg sample.toInt
  have lower := sample.le_toInt
  have upper := sample.toInt_lt
  unfold Toward at toward
  unfold Fits at *
  omega

/-- What a turn leaves. -/
def Deemphasis.turned (fm : Deemphasis) (i : Nat) : Deemphasis :=
  let avg := deemphasized fm.deemphA fm.avg (fm.result i).toInt
  { fm with
    result := Function.update fm.result i (Int16.ofInt avg)
    avg := avg
    assigned := fm.assigned ++ [avg] }

/-- No operation of a turn overflows. -/
theorem deemphTurn_eq_some
    {fm : Deemphasis}
    (positive : 1 ≤ fm.deemphA)
    (divisor : CheckedInt.Fits fm.deemphA)
    (small : Fits fm.avg)
    (i : Nat) :
    deemphTurn fm i = some (fm.turned i) := by
  have fits := deemphasized_fits positive small (fm.result i)
  have lower := (fm.result i).le_toInt
  have upper := (fm.result i).toInt_lt
  have half : fm.deemphA.tdiv 2 = fm.deemphA / 2 :=
    Int.tdiv_eq_ediv_of_nonneg (by omega)
  have most : fm.deemphA ≤ 2147483647 := divisor.2
  have halved : div? fm.deemphA 2 = some (fm.deemphA.tdiv 2) :=
    CheckedInt.div?_of_pos divisor (by decide)
  unfold Fits at small fits
  have distance :
      sub? (fm.result i).toInt fm.avg = some ((fm.result i).toInt - fm.avg) := by
    apply CheckedInt.int?_of_fits
    unfold CheckedInt.Fits
    omega
  have roundedFits :
      CheckedInt.Fits
        (roundedDistance fm.deemphA ((fm.result i).toInt - fm.avg)) := by
    unfold CheckedInt.Fits roundedDistance
    rw [half]
    split <;> omega
  have rounded :
      (if 0 < (fm.result i).toInt - fm.avg then
        add? ((fm.result i).toInt - fm.avg) (fm.deemphA.tdiv 2)
      else
        sub? ((fm.result i).toInt - fm.avg) (fm.deemphA.tdiv 2)) =
      some (roundedDistance fm.deemphA ((fm.result i).toInt - fm.avg)) := by
    rw [← CheckedInt.int?_of_fits roundedFits]
    unfold roundedDistance
    split <;> rfl
  have average :
      add? fm.avg
          ((roundedDistance fm.deemphA ((fm.result i).toInt - fm.avg)).tdiv fm.deemphA) =
        some (deemphasized fm.deemphA fm.avg (fm.result i).toInt) := by
    apply CheckedInt.int?_of_fits
    change CheckedInt.Fits (deemphasized fm.deemphA fm.avg (fm.result i).toInt)
    unfold CheckedInt.Fits
    omega
  unfold deemphTurn
  simp only [Option.bind_eq_bind, distance, halved, rounded,
    CheckedInt.div?_of_pos roundedFits (show 0 < fm.deemphA by omega), average,
    Option.bind_some]
  rfl

/-! ## Runs -/

/-- What turns have made of the samples in front. -/
structure Smoothed
    (start : Deemphasis)
    (count : Nat)
    (values : List Int)
    (fm : Deemphasis) : Prop where
  follows :
    Follows start.avg ((window start.result 0 count).map Int16.toInt) values
  avg : fm.avg = values.getLastD start.avg
  assigned : fm.assigned = start.assigned ++ values
  stored : (window fm.result 0 count).map Int16.toInt = values
  unread : ∀ place, count ≤ place → fm.result place = start.result place
  deemphA : fm.deemphA = start.deemphA
  resultLen : fm.resultLen = start.resultLen
  small : Fits fm.avg

/-- One turn more. -/
theorem Smoothed.turn
    {start fm : Deemphasis}
    {count : Nat}
    {values : List Int}
    (smoothed : Smoothed start count values fm)
    (positive : 1 ≤ start.deemphA) :
    Smoothed start (count + 1)
      (values ++ [deemphasized fm.deemphA fm.avg (fm.result count).toInt])
      (fm.turned count) := by
  have fits : Fits (deemphasized fm.deemphA fm.avg (fm.result count).toInt) :=
    deemphasized_fits (by rw [smoothed.deemphA]; exact positive) smoothed.small _
  have read := smoothed.unread count (Nat.le_refl count)
  constructor
  · rw [BoundedBuffer.window_add, List.map_append]
    apply smoothed.follows.append
    rw [← smoothed.avg]
    refine .cons ?_ .nil
    rw [smoothed.deemphA, read, Nat.zero_add]
    exact deemphasized_toward positive _ _
  · rw [List.getLastD_concat]
    rfl
  · change fm.assigned ++ _ = _
    rw [smoothed.assigned, List.append_assoc]
  · have front :
        window (fm.turned count).result 0 count = window fm.result 0 count := by
      apply BoundedBuffer.window_congr
      intro place _ below
      exact Function.update_of_ne (by omega) _ _
    rw [BoundedBuffer.window_add, front, List.map_append, smoothed.stored, Nat.zero_add]
    congr 1
    change [(Function.update fm.result count _ count).toInt] = _
    rw [Function.update_self, (toInt_eq_iff_fits _).mpr fits]
  · intro place beyond
    change Function.update fm.result count _ place = _
    rw [Function.update_of_ne (by omega)]
    exact smoothed.unread place (by omega)
  · exact smoothed.deemphA
  · exact smoothed.resultLen
  · exact fits

/-- The turns, from the first sample of a block on. -/
theorem deemphTurns_smoothed
    {start : Deemphasis}
    (positive : 1 ≤ start.deemphA)
    (divisor : CheckedInt.Fits start.deemphA)
    (small : Fits start.avg)
    (count : Nat) :
    ∃ fm values,
      (List.range count).foldlM deemphTurn start = some fm ∧
        Smoothed start count values fm := by
  induction count with
  | zero =>
      exact ⟨start, [], rfl, .nil, rfl, (List.append_nil _).symm, rfl,
        fun _ _ => rfl, rfl, rfl, small⟩
  | succ count inductionHypothesis =>
      obtain ⟨fm, values, ran, smoothed⟩ := inductionHypothesis
      have turn :=
        @deemphTurn_eq_some fm (by rw [smoothed.deemphA]; exact positive)
          (by rw [smoothed.deemphA]; exact divisor) smoothed.small count
      refine ⟨fm.turned count, _, ?_, smoothed.turn positive⟩
      rw [List.range_succ, List.foldlM_append, ran, Option.bind_eq_bind,
        Option.bind_some, List.foldlM_cons, turn]
      rfl

/-- A block leaves its averages, and keeps the last one. -/
theorem deemphBlock_smoothed
    {fm : Deemphasis}
    (positive : 1 ≤ fm.deemphA)
    (divisor : CheckedInt.Fits fm.deemphA)
    (small : Fits fm.avg)
    (block : List Int16) :
    ∃ called values,
      deemphBlock fm block = some called ∧
        Smoothed (fm.load block) block.length values called :=
  @deemphTurns_smoothed (fm.load block) positive divisor small block.length

/-- All blocks: each begins with the average that the one before it has left. -/
theorem deemphBlocks_run
    {fm : Deemphasis}
    (positive : 1 ≤ fm.deemphA)
    (divisor : CheckedInt.Fits fm.deemphA)
    (small : Fits fm.avg)
    (blocks : List (List Int16)) :
    ∃ outputs later,
      deemphBlocks fm blocks = some (outputs, later) ∧
        later.assigned = fm.assigned ++ outputs.map Int16.toInt ∧
        Follows fm.avg (blocks.flatten.map Int16.toInt) (outputs.map Int16.toInt) := by
  induction blocks generalizing fm with
  | nil =>
      exact ⟨[], fm, rfl, (List.append_nil _).symm, .nil⟩
  | cons block rest inductionHypothesis =>
      obtain ⟨called, values, ran, smoothed⟩ :=
        deemphBlock_smoothed positive divisor small block
      have sameA : called.deemphA = fm.deemphA := smoothed.deemphA
      have length : called.resultLen = block.length := smoothed.resultLen
      have follows : Follows fm.avg (block.map Int16.toInt) values := by
        have inFront := smoothed.follows
        rw [Deemphasis.load, BoundedBuffer.window_blit_self] at inFront
        exact inFront
      obtain ⟨outputs, later, ranRest, assigned, followsRest⟩ :=
        inductionHypothesis (by rw [sameA]; exact positive)
          (by rw [sameA]; exact divisor) smoothed.small
      refine ⟨window called.result 0 block.length ++ outputs, later, ?_, ?_, ?_⟩
      · rw [deemphBlocks, ran, Option.bind_eq_bind, Option.bind_some, ranRest, length]
        rfl
      · rw [assigned, smoothed.assigned, List.map_append, smoothed.stored,
          List.append_assoc]
        rfl
      · rw [List.flatten_cons, List.map_append, List.map_append, smoothed.stored]
        rw [smoothed.avg] at followsRest
        exact follows.append followsRest

/-- The state in which `rtl_fm` starts. -/
def initialDeemphasis (deemphA : Int) : Deemphasis where
  result := fun _ => 0
  resultLen := 0
  deemphA := deemphA
  avg := 0
  assigned := []

/--
For every stream, wherever its blocks end: no operation overflows, the values of `avg`
are cast as they are, and follow the samples.  So each one lies within 0 and the samples
up to it, and at a constant input the distance never grows.
-/
theorem deemphBlocks_follows
    {deemphA : Int}
    (positive : 1 ≤ deemphA)
    (divisor : CheckedInt.Fits deemphA)
    (blocks : List (List Int16)) :
    ∃ outputs fm,
      deemphBlocks (initialDeemphasis deemphA) blocks = some (outputs, fm) ∧
        outputs.map Int16.toInt = fm.assigned ∧
        Follows 0 (blocks.flatten.map Int16.toInt) fm.assigned ∧
        (∀ k,
          Spans (0 :: (blocks.flatten.take k).map Int16.toInt)
            ((fm.assigned.take k).getLastD 0)) ∧
        ∀ c : Int16, (∀ sample ∈ blocks.flatten, sample = c) →
          (0 :: fm.assigned).Pairwise
            (fun before after =>
              (c.toInt - after).natAbs ≤ (c.toInt - before).natAbs) := by
  obtain ⟨outputs, fm, ran, assigned, follows⟩ :=
    @deemphBlocks_run (initialDeemphasis deemphA) positive divisor
      (show -32768 ≤ (0 : Int) ∧ (0 : Int) < 32768 by decide) blocks
  change fm.assigned = [] ++ outputs.map Int16.toInt at assigned
  rw [List.nil_append] at assigned
  rw [← assigned] at follows
  refine ⟨outputs, fm, ran, assigned.symm, follows, ?_, ?_⟩
  · intro k
    have spans := (follows.take k).spans
    rw [← List.map_take] at spans
    exact spans
  · intro c constant
    apply follows.closer
    intro other member
    obtain ⟨sample, inStream, rfl⟩ := List.mem_map.mp member
    rw [constant sample inStream]

/-- Two blocks, at the constant for 24 kHz. -/
theorem deemphBlocks_follows_two_blocks :
    ∃ outputs fm,
      deemphBlocks (initialDeemphasis 2) [[100, 100], [-7]] = some (outputs, fm) ∧
        outputs.map Int16.toInt = fm.assigned ∧
        Follows 0 ([[(100 : Int16), 100], [-7]].flatten.map Int16.toInt) fm.assigned ∧
        (∀ k,
          Spans (0 :: ([[(100 : Int16), 100], [-7]].flatten.take k).map Int16.toInt)
            ((fm.assigned.take k).getLastD 0)) ∧
        ∀ c : Int16, (∀ sample ∈ [[(100 : Int16), 100], [-7]].flatten, sample = c) →
          (0 :: fm.assigned).Pairwise
            (fun before after =>
              (c.toInt - after).natAbs ≤ (c.toInt - before).natAbs) :=
  deemphBlocks_follows (by decide) (by decide) [[100, 100], [-7]]

end LibRtlSdr.RtlFm
