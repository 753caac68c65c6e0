import LibRtlSdr.RtlPowerFft
import Mathlib.Data.Nat.Bitwise

namespace LibRtlSdr.RtlPower

/-!
# The first loop of `fix_fft`, turn by turn

`mr` is the reversed index of the turn before.  The search for the bit to set therefore
ends at a bit, with `mr + l` inside the array, and the two places of an exchange are the
index of its turn and the reversed one: two turns have no place in common.
-/

open RadixTwo (reversal)

variable {Value : Type}

/-! ## Turns -/

/-- `mr` and the values in front of the turn at `m`. -/
def beforeTurn
    (n : Nat)
    (iq : Nat → Value)
    (m : Nat) :
    Option (Nat × (Nat → Value)) :=
  (List.range' 1 (m - 1)).foldlM (reorderTurn n) (0, iq)

/-- The places that the turn at `m` exchanges, unless it continues before. -/
def exchangedPlaces
    (n : Nat)
    (s : Nat × (Nat → Value))
    (m : Nat) :
    Option (Nat × Nat) := do
  let l ← searchBit (n - 1) s.1 n
  let mr := (s.1 &&& (l - 1)) + l
  if mr ≤ m then none else some (m, mr)

/-- A turn makes the exchange of its places and no other. -/
theorem reorderTurn_places
    {n m : Nat}
    {s after : Nat × (Nat → Value)}
    (turn : reorderTurn n s m = some after) :
    after.2 =
      match exchangedPlaces n s m with
      | some places => exchange s.2 places.1 places.2
      | none => s.2 := by
  unfold reorderTurn at turn
  unfold exchangedPlaces
  obtain ⟨l, found, rest⟩ := Option.bind_eq_some_iff.mp turn
  rw [found, Option.bind_eq_bind, Option.bind_some]
  dsimp only at rest ⊢
  split at rest
  · rename_i isDone
    rw [if_pos isDone]
    exact (congrArg Prod.snd (Option.some.inj rest)).symm
  · rename_i isAbove
    rw [if_neg isAbove]
    exact (congrArg Prod.snd (Option.some.inj rest)).symm

/-- Where the search ends, the bit fits. -/
theorem searchBit_fits
    {nn mr l bit : Nat}
    (found : searchBit nn mr l = some bit) :
    mr + bit ≤ nn := by
  fun_induction searchBit nn mr l with
  | case1 l further isZero =>
      exact absurd found (by simp)
  | case2 l further notZero inductionHypothesis =>
      exact inductionHypothesis found
  | case3 l fits =>
      have same : l / 2 = bit := Option.some.inj found
      omega

/-- The turn at `m` finds the reversed index of the turn before. -/
theorem beforeTurn_reversal
    {width m : Nat}
    (isTurn : 1 ≤ m ∧ m < 2 ^ width)
    (iq : Nat → Value) :
    ∃ values, beforeTurn (2 ^ width) iq m = some (reversal width (m - 1), values) := by
  have inRange : m - 1 < 2 ^ width := by omega
  obtain ⟨values, steps⟩ :=
    Option.isSome_iff_exists.mp
      (@DisjointPairs.foldlM_isSome _ _ _ (exchanges width) complexCells _ iq
        (exchanged_apart inRange) (fun _ _ => rfl))
  refine ⟨values, ?_⟩
  rw [beforeTurn, reorder_loop inRange, steps]
  rfl

/-- What a turn exchanges is its index and the reversed one. -/
theorem exchangedPlaces_eq
    {width m : Nat}
    (isTurn : 1 ≤ m ∧ m < 2 ^ width)
    (values : Nat → Value) :
    exchangedPlaces (2 ^ width) (reversal width (m - 1), values) m =
      if reversal width m ≤ m then none else some (m, reversal width m) := by
  have next : m - 1 + 1 = m := by omega
  obtain ⟨bit, found, isNext⟩ :=
    @searchBit_reversal width (m - 1) (by omega)
  rw [next] at isNext
  unfold exchangedPlaces
  dsimp only
  rw [found, Option.bind_eq_bind, Option.bind_some, Nat.and_two_pow_sub_one_eq_mod, isNext]

/-- The exchanges of two turns have no place in common. -/
theorem exchangedPlaces_apart
    {width m other : Nat}
    (inRange : m < 2 ^ width)
    (otherInRange : other < 2 ^ width)
    (swaps : m < reversal width m)
    (otherSwaps : other < reversal width other)
    (differ : m ≠ other) :
    m ≠ reversal width other ∧ reversal width m ≠ other ∧
      reversal width m ≠ reversal width other := by
  have back := RadixTwo.reversal_reversal inRange
  have otherBack := RadixTwo.reversal_reversal otherInRange
  refine ⟨?_, ?_, ?_⟩
  · intro same
    rw [← same] at otherBack
    omega
  · intro same
    rw [same] at back
    omega
  · intro same
    rw [same, otherBack] at back
    exact differ back.symm

/-- The exchanges of two turns have no place in common. -/
theorem turns_apart
    {m : Nat}
    {iq : Nat → Value}
    {t t' : Nat}
    {s s' : Nat × (Nat → Value)}
    {places places' : Nat × Nat}
    (isPositive : 1 ≤ t)
    (isLater : t < t')
    (inRange : t' < 2 ^ m)
    (before : beforeTurn (2 ^ m) iq t = some s)
    (before' : beforeTurn (2 ^ m) iq t' = some s')
    (swaps : exchangedPlaces (2 ^ m) s t = some places)
    (swaps' : exchangedPlaces (2 ^ m) s' t' = some places') :
    places.1 ≠ places'.1 ∧ places.1 ≠ places'.2 ∧
      places.2 ≠ places'.1 ∧ places.2 ≠ places'.2 := by
  have isTurn : 1 ≤ t ∧ t < 2 ^ m := by omega
  have isTurn' : 1 ≤ t' ∧ t' < 2 ^ m := by omega
  obtain ⟨values, known⟩ := beforeTurn_reversal isTurn iq
  obtain ⟨values', known'⟩ := beforeTurn_reversal isTurn' iq
  obtain rfl := Option.some.inj (before.symm.trans known)
  obtain rfl := Option.some.inj (before'.symm.trans known')
  rw [exchangedPlaces_eq isTurn] at swaps
  rw [exchangedPlaces_eq isTurn'] at swaps'
  split at swaps <;> split at swaps'
  all_goals try contradiction
  rename_i above above'
  obtain rfl := Option.some.inj swaps
  obtain rfl := Option.some.inj swaps'
  have apart :=
    exchangedPlaces_apart isTurn.2 isTurn'.2 (by omega) (by omega) (Nat.ne_of_lt isLater)
  exact ⟨Nat.ne_of_lt isLater, apart.1, apart.2.1, apart.2.2⟩

/-- The first loop is the permutation of the reversed bits, each of its searches ends, and
no place belongs to two exchanges. -/
theorem reorder_permutes
    (m : Nat)
    (iq : Nat → Value) :
    (∃ ordered,
        reorder (2 ^ m) iq = some ordered ∧
          ∀ j < 2 ^ m, ∃ source < 2 ^ m,
            cell ordered j = cell iq source ∧
              ∀ bit < m, source.testBit bit = j.testBit (m - 1 - bit)) ∧
      (∀ t, 1 ≤ t → t < 2 ^ m →
        ∃ s l,
          beforeTurn (2 ^ m) iq t = some s ∧
            searchBit (2 ^ m - 1) s.1 (2 ^ m) = some l ∧
              1 ≤ l ∧ s.1 + l ≤ 2 ^ m - 1) ∧
      (∀ t t' s s' places places',
        1 ≤ t → t < t' → t' < 2 ^ m →
          beforeTurn (2 ^ m) iq t = some s →
            beforeTurn (2 ^ m) iq t' = some s' →
              exchangedPlaces (2 ^ m) s t = some places →
                exchangedPlaces (2 ^ m) s' t' = some places' →
                  places.1 ≠ places'.1 ∧ places.1 ≠ places'.2 ∧
                    places.2 ≠ places'.1 ∧ places.2 ≠ places'.2) := by
  refine ⟨?_, ?_, ?_⟩
  · obtain ⟨ordered, result, values, -⟩ := reorder_eq m iq
    refine ⟨ordered, result, ?_⟩
    intro j inRange
    refine ⟨reversal m j, RadixTwo.reversal_lt m j, values j inRange, ?_⟩
    intro bit isBit
    rw [RadixTwo.testBit_reversal, if_pos isBit]
  · intro t isPositive inRange
    obtain ⟨values, before⟩ := beforeTurn_reversal ⟨isPositive, inRange⟩ iq
    obtain ⟨bit, found, -⟩ := @searchBit_reversal m (t - 1) (by omega)
    exact ⟨_, _, before, found, Nat.two_pow_pos bit, searchBit_fits found⟩
  · intro t t' s s' places places' isPositive isLater inRange before before' swaps swaps'
    exact turns_apart isPositive isLater inRange before before' swaps swaps'

end LibRtlSdr.RtlPower
