import Mathlib.Data.List.Basic

namespace LibRtlSdr.DisjointPairs

/-!
# Operations in place on disjoint pairs of cells

Each step replaces the values of two cells by two that are computed from them alone.
When no two steps have a cell in common, their order does not matter: every step sees
the values from before all of them, and leaves the values behind all of them.
-/

/-- A memory of cells. -/
structure Cells (Memory Value : Type) where
  get : Memory → Nat → Value
  set : Memory → Nat → Value → Memory
  get_set :
    ∀ memory place value other,
      get (set memory place value) other =
        if other = place then value else get memory other

variable {Memory Value Index : Type}

/-- Where the steps work, and what they compute. -/
structure Pairs (Index Value : Type) where
  first : Index → Nat
  second : Index → Nat
  operate : Index → Value → Value → Option (Value × Value)

/-- A step; the second cell is stored first. -/
def Pairs.step
    (pairs : Pairs Index Value)
    (cells : Cells Memory Value)
    (memory : Memory)
    (index : Index) :
    Option Memory :=
  (pairs.operate index (cells.get memory (pairs.first index))
      (cells.get memory (pairs.second index))).map
    fun values =>
      cells.set (cells.set memory (pairs.second index) values.2) (pairs.first index)
        values.1

/-- A cell that a step works on. -/
def Pairs.Touches (pairs : Pairs Index Value) (index : Index) (place : Nat) : Prop :=
  place = pairs.first index ∨ place = pairs.second index

/-- Two steps have no cell in common. -/
def Pairs.Apart (pairs : Pairs Index Value) (one other : Index) : Prop :=
  ∀ place, pairs.Touches one place → ¬ pairs.Touches other place

/-- What steps make of a memory. -/
structure Pairs.Operated
    (pairs : Pairs Index Value)
    (cells : Cells Memory Value)
    (list : List Index)
    (before after : Memory) : Prop where
  done :
    ∀ index ∈ list,
      pairs.operate index (cells.get before (pairs.first index))
          (cells.get before (pairs.second index)) =
        some (cells.get after (pairs.first index), cells.get after (pairs.second index))
  kept :
    ∀ place,
      (∀ index ∈ list, ¬ pairs.Touches index place) →
      cells.get after place = cells.get before place

section Steps

variable {pairs : Pairs Index Value} {cells : Cells Memory Value}

/-- A step that has a result. -/
theorem step_eq_some_iff
    {memory next : Memory}
    {index : Index} :
    pairs.step cells memory index = some next ↔
      ∃ values,
        pairs.operate index (cells.get memory (pairs.first index))
            (cells.get memory (pairs.second index)) = some values ∧
          cells.set (cells.set memory (pairs.second index) values.2)
            (pairs.first index) values.1 = next := by
  unfold Pairs.step
  rw [Option.map_eq_some_iff]

/-- A step leaves the other cells. -/
theorem get_of_step
    {memory next : Memory}
    {index : Index}
    (stepped : pairs.step cells memory index = some next)
    {place : Nat}
    (elsewhere : ¬ pairs.Touches index place) :
    cells.get next place = cells.get memory place := by
  obtain ⟨values, _, rfl⟩ := step_eq_some_iff.mp stepped
  rw [cells.get_set, if_neg (fun isFirst => elsewhere (.inl isFirst)),
    cells.get_set, if_neg (fun isSecond => elsewhere (.inr isSecond))]

/-- A step operates on its own cells. -/
theorem operate_of_step
    {memory next : Memory}
    {index : Index}
    (distinct : pairs.first index ≠ pairs.second index)
    (stepped : pairs.step cells memory index = some next) :
    pairs.operate index (cells.get memory (pairs.first index))
        (cells.get memory (pairs.second index)) =
      some (cells.get next (pairs.first index), cells.get next (pairs.second index)) := by
  obtain ⟨values, operates, rfl⟩ := step_eq_some_iff.mp stepped
  rw [operates, cells.get_set, if_pos rfl, cells.get_set, if_neg distinct.symm,
    cells.get_set, if_pos rfl]

/-- The steps of a list see the values from before it. -/
theorem operated_of_foldlM
    {list : List Index}
    {before after : Memory}
    (distinct : ∀ index ∈ list, pairs.first index ≠ pairs.second index)
    (apart : list.Pairwise pairs.Apart)
    (steps : list.foldlM (pairs.step cells) before = some after) :
    pairs.Operated cells list before after := by
  induction list generalizing before with
  | nil =>
      cases steps
      exact ⟨nofun, fun _ _ => rfl⟩
  | cons head rest inductionHypothesis =>
      rw [List.foldlM_cons] at steps
      obtain ⟨middle, stepped, steps⟩ := Option.bind_eq_some_iff.mp steps
      rw [List.forall_mem_cons] at distinct
      rw [List.pairwise_cons] at apart
      have operated := inductionHypothesis distinct.2 apart.2 steps
      have headKept :
          ∀ place, pairs.Touches head place →
            cells.get after place = cells.get middle place := by
        intro place touches
        exact operated.kept place
          (fun index member => apart.1 index member place touches)
      have restFresh :
          ∀ index ∈ rest, ∀ place, pairs.Touches index place →
            cells.get middle place = cells.get before place := by
        intro index member place touches
        exact get_of_step stepped
          (fun touchesHead => apart.1 index member place touchesHead touches)
      constructor
      · rw [List.forall_mem_cons]
        constructor
        · rw [headKept _ (.inl rfl), headKept _ (.inr rfl)]
          exact operate_of_step distinct.1 stepped
        · intro index member
          rw [← restFresh index member _ (.inl rfl), ← restFresh index member _ (.inr rfl)]
          exact operated.done index member
      · intro place elsewhere
        rw [List.forall_mem_cons] at elsewhere
        rw [operated.kept place elsewhere.2, get_of_step stepped elsewhere.1]

/-- The steps of a list have a result when each has one on the values from before. -/
theorem foldlM_isSome
    {list : List Index}
    {before : Memory}
    (apart : list.Pairwise pairs.Apart)
    (each :
      ∀ index ∈ list,
        (pairs.operate index (cells.get before (pairs.first index))
          (cells.get before (pairs.second index))).isSome) :
    (list.foldlM (pairs.step cells) before).isSome := by
  induction list generalizing before with
  | nil =>
      rfl
  | cons head rest inductionHypothesis =>
      rw [List.forall_mem_cons] at each
      rw [List.pairwise_cons] at apart
      obtain ⟨values, operates⟩ := Option.isSome_iff_exists.mp each.1
      obtain ⟨middle, stepped⟩ : ∃ middle, pairs.step cells before head = some middle :=
        ⟨_, step_eq_some_iff.mpr ⟨values, operates, rfl⟩⟩
      rw [List.foldlM_cons, stepped, Option.bind_eq_bind, Option.bind_some]
      apply inductionHypothesis apart.2
      intro index member
      have fresh :
          ∀ place, pairs.Touches index place →
            cells.get middle place = cells.get before place := by
        intro place touches
        exact get_of_step stepped
          (fun touchesHead => apart.1 index member place touchesHead touches)
      rw [fresh _ (.inl rfl), fresh _ (.inr rfl)]
      exact each.2 index member

end Steps

/-- A loop over groups of steps goes through the steps of all groups. -/
theorem foldlM_flatMap
    {Group : Type}
    {members : Group → List Index}
    {step : Memory → Index → Option Memory}
    {turn : Memory → Group → Option Memory}
    {groups : List Group}
    (turns :
      ∀ group ∈ groups, ∀ memory,
        turn memory group = (members group).foldlM step memory)
    (memory : Memory) :
    groups.foldlM turn memory = (groups.flatMap members).foldlM step memory := by
  induction groups generalizing memory with
  | nil =>
      rfl
  | cons head rest inductionHypothesis =>
      rw [List.forall_mem_cons] at turns
      rw [List.flatMap_cons, List.foldlM_append, List.foldlM_cons, turns.1]
      congr 1
      funext middle
      exact inductionHypothesis turns.2 middle

end LibRtlSdr.DisjointPairs
