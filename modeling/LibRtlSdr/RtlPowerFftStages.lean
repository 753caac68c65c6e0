import LibRtlSdr.RtlPowerFft
import Mathlib.Data.List.Nodup

namespace LibRtlSdr.RtlPower

/-!
# The stages of `fix_fft`

The butterflies of a stage work on disjoint pairs of values, so each of them sees the
values from before the stage.  What holds of the reordered values and is preserved by a
stage holds of the result.
-/

open DisjointPairs (Pairs)
open RadixTwo (reversal)

variable {Value : Type} (arithmetic : Arithmetic Value)
variable (sinewave : List Value) (log2NWave : Nat)

/-! ## The pairs of a stage -/

/-- The butterflies of a stage, each with its `m` and its `i`. -/
def butterflies (l k : Nat) : Pairs (Nat × Nat) (Value × Value) where
  first := fun place => place.2
  second := fun place => place.2 + l
  operate := fun place atI atJ => do
    let w ← twiddle arithmetic sinewave log2NWave (place.1 <<< k)
    butterflyValues arithmetic w atI atJ

/-- Their places, in the order of the loops. -/
def places (n l : Nat) : List (Nat × Nat) :=
  (List.range l).flatMap fun m => (butterflyIndices n l m).map fun i => (m, i)

section Loops

variable {n l blocks : Nat}

/-- The innermost loop has a turn for each block. -/
theorem butterflyIndices_eq
    (whole : n = 2 * l * blocks)
    {m : Nat}
    (below : m < l) :
    butterflyIndices n l m = List.range' m blocks (2 * l) := by
  unfold butterflyIndices
  congr 1
  rw [Nat.div_eq_iff (by omega)]
  rcases Nat.eq_zero_or_pos blocks with isZero | positive
  · rw [isZero, Nat.mul_zero] at whole
    rw [isZero]
    omega
  · have enough : 2 * l ≤ n := by
      rw [whole]
      exact Nat.le_mul_of_pos_right _ positive
    rw [Nat.mul_comm blocks, ← whole]
    omega

/-- A place: an offset in the first half of a block. -/
theorem mem_places
    (whole : n = 2 * l * blocks)
    (place : Nat × Nat) :
    place ∈ places n l ↔
      place.1 < l ∧ ∃ index < blocks, place.2 = place.1 + 2 * l * index := by
  unfold places
  rw [List.mem_flatMap]
  constructor
  · rintro ⟨m, inLoop, inColumn⟩
    rw [List.mem_range] at inLoop
    obtain ⟨i, isTurn, rfl⟩ := List.mem_map.mp inColumn
    rw [butterflyIndices_eq whole inLoop] at isTurn
    exact ⟨inLoop, List.mem_range'.mp isTurn⟩
  · rintro ⟨inLoop, isTurn⟩
    refine ⟨place.1, List.mem_range.mpr inLoop, List.mem_map.mpr ⟨place.2, ?_, rfl⟩⟩
    rw [butterflyIndices_eq whole inLoop]
    exact List.mem_range'.mpr isTurn

/-- No place comes twice. -/
theorem places_nodup (whole : n = 2 * l * blocks) : (places n l).Nodup := by
  unfold places
  rw [List.nodup_flatMap]
  constructor
  · intro m inLoop
    rw [List.mem_range] at inLoop
    rw [butterflyIndices_eq whole inLoop]
    have turns : (List.range' m blocks (2 * l)).Nodup := List.nodup_range' (2 * l) (by omega)
    exact turns.map (fun one other same => (Prod.mk.inj same).2)
  · apply List.nodup_range.imp
    intro one other differ place inOne inOther
    obtain ⟨_, _, rfl⟩ := List.mem_map.mp inOne
    obtain ⟨_, _, same⟩ := List.mem_map.mp inOther
    exact differ (Prod.mk.inj same).1.symm

/-- A butterfly is known from each of its two cells. -/
theorem place_of_touches
    (whole : n = 2 * l * blocks)
    {k : Nat}
    {place : Nat × Nat}
    (member : place ∈ places n l)
    {t : Nat}
    (touches : (butterflies arithmetic sinewave log2NWave l k).Touches place t) :
    place = (t % l, t % l + 2 * l * (t / (2 * l))) ∧ t < n := by
  obtain ⟨inLoop, index, isBlock, isAt⟩ := (mem_places whole place).mp member
  have next : 2 * l * (index + 1) ≤ n := by
    rw [whole]
    exact Nat.mul_le_mul_left _ isBlock
  rw [Nat.mul_succ] at next
  -- both legs have the same offset modulo `l`
  obtain ⟨offset, isOffset, inBlock, offsetMod⟩ :
      ∃ offset, t = offset + 2 * l * index ∧ offset < 2 * l ∧ offset % l = place.1 := by
    rcases touches with atFirst | atSecond
    · exact ⟨place.1, by rw [← isAt]; exact atFirst, by omega, Nat.mod_eq_of_lt inLoop⟩
    · refine ⟨place.1 + l, ?_, by omega, ?_⟩
      · have same : t = place.2 + l := atSecond
        omega
      · rw [Nat.add_mod_right, Nat.mod_eq_of_lt inLoop]
  have quotient : t / (2 * l) = index := by
    rw [isOffset, Nat.add_mul_div_left _ _ (by omega), Nat.div_eq_of_lt inBlock,
      Nat.zero_add]
  have remainder : t % l = place.1 := by
    rw [isOffset, Nat.mul_comm 2 l, Nat.mul_assoc, Nat.add_mul_mod_self_left, offsetMod]
  refine ⟨?_, by omega⟩
  rw [quotient, remainder, ← isAt]

/-- Two butterflies of a stage have no cell in common. -/
theorem places_apart (whole : n = 2 * l * blocks) (k : Nat) :
    (places n l).Pairwise (butterflies arithmetic sinewave log2NWave l k).Apart := by
  apply (places_nodup whole).imp_of_mem
  intro one other oneMember otherMember differ t touchesOne touchesOther
  have isOne := place_of_touches arithmetic sinewave log2NWave whole oneMember touchesOne
  have isOther :=
    place_of_touches arithmetic sinewave log2NWave whole otherMember touchesOther
  exact differ (isOne.1.trans isOther.1.symm)

/-- A turn of the innermost loop is a step on a pair. -/
theorem butterfly_eq_step
    {k m : Nat}
    {w : Value × Value}
    (isTwiddle : twiddle arithmetic sinewave log2NWave (m <<< k) = some w)
    (iq : Nat → Value)
    (i : Nat) :
    butterfly arithmetic w l iq i =
      (butterflies arithmetic sinewave log2NWave l k).step complexCells iq (m, i) := by
  unfold butterfly Pairs.step butterflies complexCells
  simp only [isTwiddle, Option.bind_eq_bind, Option.bind_some]
  cases butterflyValues arithmetic w (cell iq i) (cell iq (i + l)) <;> rfl

/-- The body of the loop over `m` makes the steps with this `m`. -/
theorem column_eq
    (whole : n = 2 * l * blocks)
    (present : 0 < blocks)
    {m : Nat}
    (below : m < l)
    (k : Nat)
    (iq : Nat → Value) :
    column arithmetic sinewave log2NWave n l k iq m =
      ((butterflyIndices n l m).map fun i => (m, i)).foldlM
        ((butterflies arithmetic sinewave log2NWave l k).step complexCells) iq := by
  unfold column
  rw [List.foldlM_map]
  cases isTwiddle : twiddle arithmetic sinewave log2NWave (m <<< k) with
  | none =>
      -- there is a first step, and it has no value of the table
      obtain ⟨rest, rfl⟩ : ∃ rest, blocks = rest + 1 := ⟨blocks - 1, by omega⟩
      rw [butterflyIndices_eq whole below, List.range'_succ, List.foldlM_cons]
      simp [Pairs.step, butterflies, isTwiddle]
  | some w =>
      rw [Option.bind_eq_bind, Option.bind_some]
      congr 1
      funext iq i
      exact butterfly_eq_step arithmetic sinewave log2NWave isTwiddle iq i

/-- A stage makes the steps at all places. -/
theorem stage_eq
    (whole : n = 2 * l * blocks)
    (present : 0 < blocks)
    (k : Nat)
    (iq : Nat → Value) :
    stage arithmetic sinewave log2NWave n l k iq =
      (places n l).foldlM
        ((butterflies arithmetic sinewave log2NWave l k).step complexCells) iq := by
  unfold stage places
  apply DisjointPairs.foldlM_flatMap
  intro m inLoop iq
  exact column_eq arithmetic sinewave log2NWave whole present (List.mem_range.mp inLoop)
    k iq

/-- The butterfly at offset `j` of a block, on the values of an array. -/
def legs (l k : Nat) (iq : Nat → Value) (index j : Nat) :
    Option ((Value × Value) × (Value × Value)) := do
  let w ← twiddle arithmetic sinewave log2NWave (j <<< k)
  butterflyValues arithmetic w (cell iq (j + 2 * l * index))
    (cell iq (j + 2 * l * index + l))

/-- What a stage makes of an array. -/
structure Transformed (n l blocks k : Nat) (before after : Nat → Value) : Prop where
  legs :
    ∀ index < blocks, ∀ j < l,
      legs arithmetic sinewave log2NWave l k before index j =
        some
          (cell after (j + 2 * l * index), cell after (j + 2 * l * index + l))
  kept : ∀ t, n ≤ t → cell after t = cell before t

/-- The result of a stage. -/
theorem transformed_of_stage
    (whole : n = 2 * l * blocks)
    (present : 0 < blocks)
    {k : Nat}
    {before after : Nat → Value}
    (result : stage arithmetic sinewave log2NWave n l k before = some after) :
    Transformed arithmetic sinewave log2NWave n l blocks k before after := by
  rw [stage_eq arithmetic sinewave log2NWave whole present] at result
  have distinct :
      ∀ place ∈ places n l,
        (butterflies arithmetic sinewave log2NWave l k).first place ≠
          (butterflies arithmetic sinewave log2NWave l k).second place := by
    intro place member
    have inLoop := ((mem_places whole place).mp member).1
    simp only [butterflies]
    omega
  have operated :=
    DisjointPairs.operated_of_foldlM distinct
      (places_apart arithmetic sinewave log2NWave whole k) result
  constructor
  · intro index isBlock j below
    exact operated.done (j, j + 2 * l * index)
      ((mem_places whole _).mpr ⟨below, index, isBlock, rfl⟩)
  · intro t behind
    apply operated.kept t
    intro place member touches
    have inside :=
      (place_of_touches arithmetic sinewave log2NWave whole member touches).2
    omega

/-- A stage has a result when each of its butterflies has one. -/
theorem stage_transformed
    (whole : n = 2 * l * blocks)
    (present : 0 < blocks)
    {k : Nat}
    {iq : Nat → Value}
    (each :
      ∀ index < blocks, ∀ j < l, ∃ values,
        legs arithmetic sinewave log2NWave l k iq index j = some values) :
    ∃ next,
      stage arithmetic sinewave log2NWave n l k iq = some next ∧
        Transformed arithmetic sinewave log2NWave n l blocks k iq next := by
  have completes : (stage arithmetic sinewave log2NWave n l k iq).isSome := by
    rw [stage_eq arithmetic sinewave log2NWave whole present]
    apply DisjointPairs.foldlM_isSome
      (places_apart arithmetic sinewave log2NWave whole k)
    rintro ⟨j, i⟩ member
    obtain ⟨below, index, isBlock, isAt⟩ := (mem_places whole _).mp member
    dsimp only at below isAt
    subst isAt
    exact Option.isSome_iff_exists.mpr (each index isBlock j below)
  obtain ⟨next, result⟩ := Option.isSome_iff_exists.mp completes
  exact
    ⟨next, result, transformed_of_stage arithmetic sinewave log2NWave whole present result⟩

/-- A value of the frame is a leg of a butterfly. -/
theorem exists_leg
    (whole : n = 2 * l * blocks)
    {t : Nat}
    (inside : t < n) :
    ∃ index < blocks, ∃ j < l, t = j + 2 * l * index ∨ t = j + 2 * l * index + l := by
  have isBlock : t / (2 * l) < blocks := Nat.div_lt_of_lt_mul (whole ▸ inside)
  have split := Nat.mod_add_div t (2 * l)
  have positive : 0 < 2 * l := by
    apply Nat.pos_of_ne_zero
    intro isZero
    rw [whole, isZero, Nat.zero_mul] at inside
    exact absurd inside (Nat.not_lt_zero _)
  have offset := Nat.mod_lt t positive
  refine ⟨t / (2 * l), isBlock, ?_⟩
  rcases Nat.lt_or_ge (t % (2 * l)) l with inFirst | inSecond
  · exact ⟨t % (2 * l), inFirst, .inl split.symm⟩
  · exact ⟨t % (2 * l) - l, by omega, .inr (by omega)⟩

/-- The legs of a butterfly are values of the frame. -/
theorem leg_lt
    (whole : n = 2 * l * blocks)
    {index j : Nat}
    (isBlock : index < blocks)
    (below : j < l) :
    j + 2 * l * index + l < n := by
  have next : 2 * l * (index + 1) ≤ n := by
    rw [whole]
    exact Nat.mul_le_mul_left _ isBlock
  rw [Nat.mul_succ] at next
  omega

/-- What a butterfly makes of any two values, a stage makes of all. -/
theorem stage_preserves
    (whole : n = 2 * l * blocks)
    (present : 0 < blocks)
    {k : Nat}
    {Before After : Value × Value → Prop}
    (each :
      ∀ j < l, ∃ w,
        twiddle arithmetic sinewave log2NWave (j <<< k) = some w ∧
          ∀ atI atJ, Before atI → Before atJ →
            ∃ values,
              butterflyValues arithmetic w atI atJ = some values ∧
                After values.1 ∧ After values.2)
    {iq : Nat → Value}
    (holds : ∀ t < n, Before (cell iq t)) :
    ∃ next,
      stage arithmetic sinewave log2NWave n l k iq = some next ∧
        ∀ t < n, After (cell next t) := by
  have results :
      ∀ index < blocks, ∀ j < l, ∃ values,
        legs arithmetic sinewave log2NWave l k iq index j = some values ∧
          After values.1 ∧ After values.2 := by
    intro index isBlock j below
    obtain ⟨w, isTwiddle, butterflies⟩ := each j below
    have inside := leg_lt whole isBlock below
    obtain ⟨values, result, after⟩ :=
      butterflies _ _ (holds (j + 2 * l * index) (by omega)) (holds _ inside)
    refine ⟨values, ?_, after⟩
    unfold legs
    rw [isTwiddle, Option.bind_eq_bind, Option.bind_some, result]
  obtain ⟨next, result, transformed⟩ :=
    stage_transformed arithmetic sinewave log2NWave whole present
      (fun index isBlock j below =>
        (results index isBlock j below).imp (fun _ found => found.1))
  refine ⟨next, result, ?_⟩
  intro t inside
  obtain ⟨index, isBlock, j, below, place⟩ := exists_leg whole inside
  obtain ⟨values, isLegs, first, second⟩ := results index isBlock j below
  have stored := Option.some.inj (isLegs.symm.trans (transformed.legs index isBlock j below))
  rw [stored] at first second
  rcases place with rfl | rfl
  · exact first
  · exact second

end Loops

/-! ## The loop over the stages -/

section Rules

variable {m : Nat}

/-- The blocks of a stage. -/
theorem whole_of_stage
    {s rest : Nat}
    (isStage : s + 1 + rest = m) :
    2 ^ m = 2 * 2 ^ s * 2 ^ rest := by
  rw [← isStage, Nat.pow_add, Nat.pow_succ, Nat.mul_comm 2]

/-- A turn of the loop. -/
theorem stages_succ
    {s rest : Nat}
    (isStage : s + 1 + rest = m)
    (iq : Nat → Value) :
    stages arithmetic sinewave log2NWave (2 ^ m) (2 ^ s) (log2NWave - 1 - s) iq =
      (stage arithmetic sinewave log2NWave (2 ^ m) (2 ^ s) (log2NWave - 1 - s) iq).bind
        (stages arithmetic sinewave log2NWave (2 ^ m) (2 ^ (s + 1))
          (log2NWave - 1 - (s + 1))) := by
  have further : 2 ^ s < 2 ^ m := Nat.pow_lt_pow_right (by decide) (by omega)
  rw [stages, if_pos further, if_neg (Nat.two_pow_pos s).ne', ← Nat.pow_succ']
  rfl

/-- The end of the loop. -/
theorem stages_last (k : Nat) (iq : Nat → Value) :
    stages arithmetic sinewave log2NWave (2 ^ m) (2 ^ m) k iq = some iq := by
  rw [stages, if_neg (Nat.lt_irrefl _)]

/-- What every stage preserves holds behind the last. -/
theorem stages_rule
    {Inv : Nat → (Nat → Value) → Prop}
    (step :
      ∀ s rest iq, s + 1 + rest = m → Inv s iq →
        ∃ next,
          stage arithmetic sinewave log2NWave (2 ^ m) (2 ^ s) (log2NWave - 1 - s) iq =
              some next ∧
            Inv (s + 1) next)
    {s rest : Nat}
    (isStage : s + rest = m)
    {iq : Nat → Value}
    (holds : Inv s iq) :
    ∃ final,
      stages arithmetic sinewave log2NWave (2 ^ m) (2 ^ s) (log2NWave - 1 - s) iq =
          some final ∧
        Inv m final := by
  induction rest generalizing s iq with
  | zero =>
      obtain rfl : s = m := isStage
      exact ⟨iq, stages_last arithmetic sinewave log2NWave _ iq, holds⟩
  | succ rest inductionHypothesis =>
      have more : s + 1 + rest = m := by omega
      obtain ⟨next, result, nextHolds⟩ := step s rest iq more holds
      rw [stages_succ arithmetic sinewave log2NWave more, result]
      exact inductionHypothesis more nextHolds

/-- The stages leave the values behind the frame. -/
theorem stages_kept
    {s rest : Nat}
    (isStage : s + rest = m)
    {iq final : Nat → Value}
    (result :
      stages arithmetic sinewave log2NWave (2 ^ m) (2 ^ s) (log2NWave - 1 - s) iq =
        some final) :
    ∀ t, 2 ^ m ≤ t → cell final t = cell iq t := by
  induction rest generalizing s iq with
  | zero =>
      obtain rfl : s = m := isStage
      rw [stages_last] at result
      cases result
      exact fun _ _ => rfl
  | succ rest inductionHypothesis =>
      have more : s + 1 + rest = m := by omega
      rw [stages_succ arithmetic sinewave log2NWave more] at result
      obtain ⟨next, first, others⟩ := Option.bind_eq_some_iff.mp result
      have transformed :=
        transformed_of_stage arithmetic sinewave log2NWave (whole_of_stage more)
          (Nat.two_pow_pos rest) first
      intro t behind
      rw [inductionHypothesis more others t behind, transformed.kept t behind]

/-- What holds of the reordered values and is preserved by every stage holds at last. -/
theorem fixFft_rule
    (fits : m ≤ log2NWave)
    {iq : Nat → Value}
    {Inv : Nat → (Nat → Value) → Prop}
    (start :
      ∀ ordered,
        (∀ t < 2 ^ m, cell ordered t = cell iq (reversal m t)) →
        Inv 0 ordered)
    (step :
      ∀ s rest iq, s + 1 + rest = m → Inv s iq →
        ∃ next,
          stage arithmetic sinewave log2NWave (2 ^ m) (2 ^ s) (log2NWave - 1 - s) iq =
              some next ∧
            Inv (s + 1) next) :
    ∃ final,
      fixFft arithmetic sinewave log2NWave iq m = some (0, final) ∧ Inv m final := by
  obtain ⟨ordered, reorders, isReversed, _⟩ := reorder_eq m iq
  obtain ⟨final, result, holds⟩ :=
    stages_rule arithmetic sinewave log2NWave step (Nat.zero_add m)
      (start ordered isReversed)
  have notLarger : ¬ 2 ^ log2NWave < 2 ^ m :=
    Nat.not_lt.mpr (Nat.pow_le_pow_right (by decide) fits)
  refine ⟨final, ?_, holds⟩
  unfold fixFft
  rw [if_neg notLarger, reorders, Option.bind_eq_bind, Option.bind_some]
  have fromFirst :
      stages arithmetic sinewave log2NWave (2 ^ m) 1 (log2NWave - 1) ordered =
        some final :=
    result
  rw [fromFirst]
  rfl

/-- The transform leaves the values behind the frame. -/
theorem fixFft_kept
    {iq final : Nat → Value}
    {code : Int}
    (result : fixFft arithmetic sinewave log2NWave iq m = some (code, final)) :
    ∀ t, 2 ^ m ≤ t → cell final t = cell iq t := by
  unfold fixFft at result
  split at result
  · cases result
    exact fun _ _ => rfl
  · obtain ⟨ordered, reorders, isReversed, kept⟩ := reorder_eq m iq
    rw [reorders, Option.bind_eq_bind, Option.bind_some] at result
    obtain ⟨last, isLast, same⟩ := Option.bind_eq_some_iff.mp result
    cases same
    have laterKept :=
      stages_kept arithmetic sinewave log2NWave (Nat.zero_add m) isLast
    intro t behind
    rw [laterKept t behind, kept t behind]

/-! ## The places of the table -/

/-- The angles of a stage are below half a turn. -/
theorem shifted_lt
    {s rest j : Nat}
    (isStage : s + 1 + rest = log2NWave)
    (below : j < 2 ^ s) :
    j <<< (log2NWave - 1 - s) < 2 ^ log2NWave / 2 := by
  have remaining : log2NWave - 1 - s = rest := by omega
  have half : 2 ^ log2NWave / 2 = 2 ^ s * 2 ^ rest := by
    rw [whole_of_stage isStage, Nat.mul_assoc, Nat.mul_div_cancel_left _ (by decide)]
  rw [remaining, Nat.shiftLeft_eq, half]
  exact Nat.mul_lt_mul_of_pos_right below (Nat.two_pow_pos rest)

/-- For them, sine and cosine are in a table of three quarters of a turn. -/
theorem quarter_add_lt
    {log2NWave index : Nat}
    (isHalfTurn : index < 2 ^ log2NWave / 2) :
    index + 2 ^ log2NWave / 4 < 3 * 2 ^ log2NWave / 4 := by
  omega

end Rules

end LibRtlSdr.RtlPower
