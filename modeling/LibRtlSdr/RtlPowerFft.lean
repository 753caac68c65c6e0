import LibRtlSdr.DisjointPairs
import LibRtlSdr.RadixTwo
import Mathlib.Logic.Function.Basic

namespace LibRtlSdr.RtlPower

/-!
# The transform of `rtl_power`: `fix_fft`

The complex values of a frame are put into the order of their reversed bits, and a stage
of butterflies for each bit follows.  The arithmetic of the 16-bit variables is a
parameter: it may be exact, it may wrap, and it may have no result where a value does not
fit.  A read behind the table has no result either.
-/

open DisjointPairs (Cells Pairs)

variable {Value : Type}

/-! ## Source -/

/-- The operations whose results are assigned to an `int16_t`. -/
structure Arithmetic (Value : Type) where
  neg : Value → Option Value
  /-- `value >>= 1`. -/
  half : Value → Option Value
  /-- `FIX_MPY`. -/
  mpy : Value → Value → Option Value
  add : Value → Value → Option Value
  sub : Value → Value → Option Value

/-- The complex value `t` of an interleaved array. -/
def cell (iq : Nat → Value) (t : Nat) : Value × Value :=
  (iq (2 * t), iq (2 * t + 1))

/-- Its real part is stored first. -/
def storeCell (iq : Nat → Value) (t : Nat) (value : Value × Value) : Nat → Value :=
  Function.update (Function.update iq (2 * t) value.1) (2 * t + 1) value.2

/-- `l = n; do {l >>= 1;} while (mr+l > nn)`, from an `l` on. -/
def searchBit (nn mr l : Nat) : Option Nat :=
  if nn < mr + l / 2 then
    -- `l` stays 0 from here on, and the loop does not end
    if l / 2 = 0 then none else searchBit nn mr (l / 2)
  else
    some (l / 2)
termination_by l
decreasing_by omega

/-- The exchange of the complex values at `m` and `mr`. -/
def exchange (iq : Nat → Value) (m mr : Nat) : Nat → Value :=
  let tr := iq (2 * m)
  let iq := Function.update iq (2 * m) (iq (2 * mr))
  let iq := Function.update iq (2 * mr) tr
  let ti := iq (2 * m + 1)
  let iq := Function.update iq (2 * m + 1) (iq (2 * mr + 1))
  Function.update iq (2 * mr + 1) ti

/-- The turn of the first loop at `m`, on `mr` and the values. -/
def reorderTurn
    (n : Nat)
    (s : Nat × (Nat → Value))
    (m : Nat) :
    Option (Nat × (Nat → Value)) := do
  let l ← searchBit (n - 1) s.1 n
  let mr := (s.1 &&& (l - 1)) + l
  if mr ≤ m then
    some (mr, s.2)
  else
    some (mr, exchange s.2 m mr)

/-- "decimation in time - re-order data". -/
def reorder (n : Nat) (iq : Nat → Value) : Option (Nat → Value) := do
  let s ← (List.range' 1 (n - 1)).foldlM (reorderTurn n) (0, iq)
  some s.2

section Stages

variable (arithmetic : Arithmetic Value) (sinewave : List Value) (log2NWave : Nat)

/-- `wr` and `wi` for an index; `shift` is always 1. -/
def twiddle (j : Nat) : Option (Value × Value) := do
  let cosine ← sinewave[j + 2 ^ log2NWave / 4]?
  let sine ← sinewave[j]?
  let wi ← arithmetic.neg sine
  let wr ← arithmetic.half cosine
  let wi ← arithmetic.half wi
  some (wr, wi)

/-- The new values at `i` and `j` from those there, `i` first. -/
def butterflyValues
    (w atI atJ : Value × Value) :
    Option ((Value × Value) × (Value × Value)) := do
  let wrRe ← arithmetic.mpy w.1 atJ.1
  let wiIm ← arithmetic.mpy w.2 atJ.2
  let tr ← arithmetic.sub wrRe wiIm
  let wrIm ← arithmetic.mpy w.1 atJ.2
  let wiRe ← arithmetic.mpy w.2 atJ.1
  let ti ← arithmetic.add wrIm wiRe
  let qr ← arithmetic.half atI.1
  let qi ← arithmetic.half atI.2
  let jr ← arithmetic.sub qr tr
  let ji ← arithmetic.sub qi ti
  let ir ← arithmetic.add qr tr
  let ii ← arithmetic.add qi ti
  some ((ir, ii), (jr, ji))

/-- The body of the innermost loop at `i`. -/
def butterfly
    (w : Value × Value)
    (l : Nat)
    (iq : Nat → Value)
    (i : Nat) :
    Option (Nat → Value) := do
  let j := i + l
  let values ← butterflyValues arithmetic w (cell iq i) (cell iq j)
  some (storeCell (storeCell iq j values.2) i values.1)

/-- The indices of the innermost loop: `m`, `m + istep`, ... below `n`. -/
def butterflyIndices (n l m : Nat) : List Nat :=
  List.range' m ((n - m + (2 * l - 1)) / (2 * l)) (2 * l)

/-- The body of the loop over `m`. -/
def column (n l k : Nat) (iq : Nat → Value) (m : Nat) : Option (Nat → Value) := do
  let w ← twiddle arithmetic sinewave log2NWave (m <<< k)
  (butterflyIndices n l m).foldlM (butterfly arithmetic w l) iq

/-- The loop over `m`. -/
def stage (n l k : Nat) (iq : Nat → Value) : Option (Nat → Value) :=
  (List.range l).foldlM (column arithmetic sinewave log2NWave n l k) iq

/-- `while (l < n)`. -/
def stages (n l k : Nat) (iq : Nat → Value) : Option (Nat → Value) :=
  if l < n then
    -- `istep` would be 0 as well
    if l = 0 then
      none
    else do
      let iq ← stage arithmetic sinewave log2NWave n l k iq
      stages n (2 * l) (k - 1) iq
  else
    some iq
termination_by n - l
decreasing_by omega

/-- `fix_fft`: the result and the values. -/
def fixFft (iq : Nat → Value) (m : Nat) : Option (Int × (Nat → Value)) :=
  if 2 ^ log2NWave < 2 ^ m then
    some (-1, iq)
  else do
    let iq ← reorder (2 ^ m) iq
    let iq ← stages arithmetic sinewave log2NWave (2 ^ m) 1 (log2NWave - 1) iq
    some (0, iq)

end Stages

/-! ## Cells -/

theorem cell_storeCell
    (iq : Nat → Value)
    (place : Nat)
    (value : Value × Value)
    (other : Nat) :
    cell (storeCell iq place value) other =
      if other = place then value else cell iq other := by
  unfold cell storeCell
  split
  · rename_i same
    rw [same, Function.update_of_ne (by omega), Function.update_self,
      Function.update_self]
  · rw [Function.update_of_ne (by omega), Function.update_of_ne (by omega),
      Function.update_of_ne (by omega), Function.update_of_ne (by omega)]

/-- An interleaved array as a memory of complex values. -/
def complexCells : Cells (Nat → Value) (Value × Value) where
  get := cell
  set := storeCell
  get_set := cell_storeCell

/-- An exchange stores a complex value at each of the two places. -/
theorem exchange_eq
    (iq : Nat → Value)
    (m mr : Nat) :
    exchange iq m mr = storeCell (storeCell iq m (cell iq mr)) mr (cell iq m) := by
  unfold exchange storeCell cell
  dsimp only
  rw [Function.update_comm (show 2 * mr ≠ 2 * m + 1 by omega)]
  have fresh :
      ∀ place, place ≠ 2 * m → place ≠ 2 * mr →
        Function.update (Function.update iq (2 * m) (iq (2 * mr))) (2 * mr)
            (iq (2 * m)) place = iq place := by
    intro place notFirst notSecond
    rw [Function.update_of_ne notSecond, Function.update_of_ne notFirst]
  rw [fresh (2 * m + 1) (by omega) (by omega), fresh (2 * mr + 1) (by omega) (by omega)]

/-! ## The order of reversed bits -/

open RadixTwo (reversal)

/-- A bit above those that are searched makes no difference. -/
theorem searchBit_add (nn mr l above : Nat) :
    searchBit (nn + above) (mr + above) l = searchBit nn mr l := by
  fun_induction searchBit nn mr l with
  | case1 l further isZero =>
      rw [searchBit, if_pos (by omega), if_pos isZero]
  | case2 l further notZero inductionHypothesis =>
      rw [searchBit, if_pos (by omega), if_neg notZero, inductionHypothesis]
  | case3 l found =>
      rw [searchBit, if_neg (by omega)]

/-- The search finds the bit that the next reversed index sets. -/
theorem searchBit_reversal
    {width t : Nat}
    (inRange : t + 1 < 2 ^ width) :
    ∃ bit,
      searchBit (2 ^ width - 1) (reversal width t) (2 ^ width) = some (2 ^ bit) ∧
        reversal width t % 2 ^ bit + 2 ^ bit = reversal width (t + 1) := by
  induction width generalizing t with
  | zero =>
      exact absurd inRange (by omega)
  | succ width inductionHypothesis =>
      have low := RadixTwo.reversal_lt width (t / 2)
      have half : 2 ^ (width + 1) / 2 = 2 ^ width := by
        rw [Nat.pow_succ]
        omega
      rw [Nat.pow_succ] at inRange
      rcases Nat.mod_two_eq_zero_or_one t with even | odd
      · have clear : reversal (width + 1) t = reversal width (t / 2) := by
          rw [reversal, even, Nat.zero_mul, Nat.zero_add]
        refine ⟨width, ?_, ?_⟩
        · have fits : ¬ 2 ^ (width + 1) - 1 < reversal width (t / 2) + 2 ^ width := by
            rw [Nat.pow_succ]
            omega
          rw [searchBit, half, clear, if_neg fits]
        · rw [RadixTwo.reversal_succ_of_even even, clear, Nat.mod_eq_of_lt low,
            Nat.add_comm]
      · have set : reversal (width + 1) t = reversal width (t / 2) + 2 ^ width := by
          rw [reversal, odd, Nat.one_mul, Nat.add_comm]
        have next : reversal (width + 1) (t + 1) = reversal width (t / 2 + 1) := by
          have isEven : t + 1 = 2 * (t / 2 + 1) := by omega
          rw [isEven, RadixTwo.reversal_two_mul]
        obtain ⟨bit, found, isNext⟩ := inductionHypothesis (t := t / 2) (by omega)
        have some := Nat.two_pow_pos width
        refine ⟨bit, ?_, ?_⟩
        · have top : 2 ^ (width + 1) - 1 = 2 ^ width - 1 + 2 ^ width := by
            rw [Nat.pow_succ]
            omega
          rw [searchBit, half, set, if_pos (by omega), if_neg (by omega), top,
            searchBit_add, found]
        · have below : 2 ^ bit ≤ 2 ^ width := by
            have bound := RadixTwo.reversal_lt width (t / 2 + 1)
            omega
          have divides : 2 ^ width % 2 ^ bit = 0 :=
            Nat.mod_eq_zero_of_dvd
              (Nat.pow_dvd_pow 2 ((Nat.pow_le_pow_iff_right (by decide)).mp below))
          rw [set, next, ← isNext, Nat.add_mod, divides, Nat.add_zero, Nat.mod_mod]

/-- The exchanges, each of a place with its reversed one. -/
def exchanges (width : Nat) : Pairs Nat (Value × Value) where
  first := reversal width
  second := id
  operate := fun _ atReversed atPlace => some (atPlace, atReversed)

/-- The places that are exchanged up to a place. -/
def exchanged (width count : Nat) : List Nat :=
  (List.range' 1 count).filter (fun t => decide (t < reversal width t))

/-- The turn at `m`. -/
theorem reorderTurn_eq
    {width t : Nat}
    (inRange : t + 1 < 2 ^ width)
    (iq : Nat → Value) :
    reorderTurn (2 ^ width) (reversal width t, iq) (t + 1) =
      some
        (reversal width (t + 1),
          if t + 1 < reversal width (t + 1) then
            exchange iq (t + 1) (reversal width (t + 1))
          else
            iq) := by
  obtain ⟨bit, found, isNext⟩ := searchBit_reversal inRange
  unfold reorderTurn
  dsimp only
  rw [found, Option.bind_eq_bind, Option.bind_some, Nat.and_two_pow_sub_one_eq_mod,
    isNext]
  split
  · rw [if_neg (by omega)]
  · rw [if_pos (by omega)]

/-- The loop makes the exchanges. -/
theorem reorder_loop
    {width count : Nat}
    (inRange : count < 2 ^ width)
    (iq : Nat → Value) :
    (List.range' 1 count).foldlM (reorderTurn (2 ^ width)) (0, iq) =
      ((exchanged width count).foldlM ((exchanges width).step complexCells) iq).map
        (fun iq => (reversal width count, iq)) := by
  induction count with
  | zero =>
      simp [exchanged]
  | succ count inductionHypothesis =>
      unfold exchanged at inductionHypothesis ⊢
      rw [List.range'_1_concat, List.filter_append, List.foldlM_append,
        inductionHypothesis (by omega), List.foldlM_append, Nat.add_comm 1]
      cases (List.filter (fun t => decide (t < reversal width t))
          (List.range' 1 count)).foldlM ((exchanges width).step complexCells) iq with
      | none =>
          rfl
      | some iq =>
          simp only [Option.map_some, Option.bind_eq_bind, Option.bind_some,
            List.foldlM_cons, List.foldlM_nil]
          rw [reorderTurn_eq inRange, Option.bind_some]
          by_cases swaps : count + 1 < reversal width (count + 1)
          · rw [if_pos swaps, exchange_eq]
            simp [List.filter, swaps, Pairs.step, exchanges, complexCells]
          · simp [List.filter, swaps]

/-- Two exchanges have no place in common. -/
theorem exchanged_apart
    {width count : Nat}
    (inRange : count < 2 ^ width) :
    (exchanged width count).Pairwise
      (exchanges width : Pairs Nat (Value × Value)).Apart := by
  have distinct : (exchanged width count).Nodup := (List.nodup_range' 1).filter _
  apply distinct.imp_of_mem
  intro one other oneMember otherMember differ place touchesOne touchesOther
  simp only [exchanged, List.mem_filter, List.mem_range'_1, decide_eq_true_eq] at *
  have oneBack := RadixTwo.reversal_reversal (show one < 2 ^ width by omega)
  have otherBack := RadixTwo.reversal_reversal (show other < 2 ^ width by omega)
  rcases touchesOne with atFirst | atSecond <;>
    rcases touchesOther with atFirst' | atSecond' <;>
    simp only [exchanges, id_eq] at *
  · have same : reversal width one = reversal width other := by omega
    rw [same] at oneBack
    exact differ (oneBack.symm.trans otherBack)
  · have same : reversal width one = other := by omega
    rw [same] at oneBack
    omega
  · have same : reversal width other = one := by omega
    rw [same] at otherBack
    omega
  · omega

/-- The values stand in reversed order behind the first loop. -/
theorem reorder_eq
    (width : Nat)
    (iq : Nat → Value) :
    ∃ ordered,
      reorder (2 ^ width) iq = some ordered ∧
        (∀ t < 2 ^ width, cell ordered t = cell iq (reversal width t)) ∧
        ∀ t, 2 ^ width ≤ t → cell ordered t = cell iq t := by
  have positive := Nat.two_pow_pos width
  have inRange : 2 ^ width - 1 < 2 ^ width := by omega
  have member (t : Nat) :
      t ∈ exchanged width (2 ^ width - 1) ↔
        (1 ≤ t ∧ t < 2 ^ width) ∧ t < reversal width t := by
    simp only [exchanged, List.mem_filter, List.mem_range'_1, decide_eq_true_eq]
    omega
  obtain ⟨ordered, steps⟩ :=
    Option.isSome_iff_exists.mp
      (@DisjointPairs.foldlM_isSome _ _ _ (exchanges width) complexCells _ iq
        (exchanged_apart inRange) (fun _ _ => rfl))
  have distinct :
      ∀ t ∈ exchanged width (2 ^ width - 1),
        (exchanges width : Pairs Nat (Value × Value)).first t ≠
          (exchanges width : Pairs Nat (Value × Value)).second t := by
    intro t isMember
    exact (((member t).mp isMember).2).ne'
  have operated :=
    DisjointPairs.operated_of_foldlM distinct (exchanged_apart inRange) steps
  have swapped :
      ∀ t ∈ exchanged width (2 ^ width - 1),
        cell ordered (reversal width t) = cell iq t ∧
          cell ordered t = cell iq (reversal width t) := by
    intro t isMember
    have done := operated.done t isMember
    simp only [exchanges, complexCells, id_eq, Option.some.injEq, Prod.mk.injEq] at done
    exact ⟨done.1.symm, done.2.symm⟩
  refine ⟨ordered, ?_, ?_, ?_⟩
  · unfold reorder
    rw [reorder_loop inRange, steps]
    rfl
  · intro t below
    have back := RadixTwo.reversal_reversal below
    have image := RadixTwo.reversal_lt width t
    -- a place is exchanged by the turn of the smaller of the two
    rcases Nat.lt_trichotomy t (reversal width t) with isBelow | isFixed | isAbove
    · have nonzero : t ≠ 0 := by
        rintro rfl
        rw [RadixTwo.reversal_zero] at isBelow
        exact absurd isBelow (by decide)
      exact (swapped t ((member t).mpr ⟨⟨by omega, below⟩, isBelow⟩)).2
    · rw [← isFixed]
      apply operated.kept t
      intro other isMember touches
      have otherRange := (member other).mp isMember
      rcases touches with atFirst | atSecond
      · have otherBack := RadixTwo.reversal_reversal otherRange.1.2
        have same : t = reversal width other := atFirst
        rw [← same, ← isFixed] at otherBack
        omega
      · have same : t = other := atSecond
        rw [← same] at otherRange
        omega
    · have nonzero : reversal width t ≠ 0 := by
        intro isZero
        rw [isZero, RadixTwo.reversal_zero] at back
        omega
      have isMember :=
        (member (reversal width t)).mpr ⟨⟨by omega, image⟩, by rw [back]; exact isAbove⟩
      have exchange := (swapped _ isMember).1
      rw [back] at exchange
      exact exchange
  · intro t above
    apply operated.kept t
    intro other isMember touches
    have otherRange := (member other).mp isMember
    have image := RadixTwo.reversal_lt width other
    rcases touches with atFirst | atSecond
    · have same : t = reversal width other := atFirst
      omega
    · have same : t = other := atSecond
      omega

end LibRtlSdr.RtlPower
