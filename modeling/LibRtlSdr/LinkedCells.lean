import Mathlib.Data.List.Basic
import Mathlib.Logic.Function.Basic

namespace LibRtlSdr.LinkedCells

/-!
# Linked lists in memory

Cells with a payload and a link to the next cell lie in a memory in which some
addresses are allocated.  A chain says which cells a pointer leads to.  A cell
outside of a chain may be written, freed or allocated without any effect on it;
a chain is lengthened through its last cell.
-/

/-- A list cell. -/
structure Cell (Payload : Type) where
  payload : Payload
  next : Option Nat

/-- A memory of cells; an address without a cell is free. -/
abbrev Heap (Payload : Type) :=
  Nat → Option (Cell Payload)

variable {Payload : Type}

/-- The cells to which a pointer leads, with their addresses, up to a null pointer. -/
def Chain
    (heap : Heap Payload) :
    Option Nat → List (Nat × Payload) → Prop
  | start, [] =>
      start = none
  | start, (address, payload) :: rest =>
      start = some address ∧
        ∃ next, heap address = some ⟨payload, next⟩ ∧ Chain heap next rest

/-- The addresses of a chain. -/
def addresses (items : List (Nat × Payload)) : List Nat :=
  items.map Prod.fst

@[simp] theorem addresses_append
    (first second : List (Nat × Payload)) :
    addresses (first ++ second) = addresses first ++ addresses second :=
  List.map_append

/-- Store a link in an allocated cell. -/
def setNext
    (heap : Heap Payload)
    (address : Nat)
    (next : Option Nat) :
    Option (Heap Payload) :=
  (heap address).map fun cell =>
    Function.update heap address (some { cell with next := next })

/-- Give a cell back. -/
def free (heap : Heap Payload) (address : Nat) : Heap Payload :=
  Function.update heap address none

/--
Follow the links to the last cell and count them; `none` if a link leads to a
free address or if there are more links than expected.
-/
def findLast (heap : Heap Payload) : Nat → Nat → Nat → Option (Nat × Nat)
  | 0, _, _ =>
      none
  | fuel + 1, current, count =>
      match heap current with
      | none =>
          none
      | some cell =>
          match cell.next with
          | none =>
              some (current, count)
          | some next =>
              findLast heap fuel next (count + 1)

variable {heap : Heap Payload} {start : Option Nat}

/-- The empty chain. -/
theorem chain_nil : Chain heap none [] :=
  rfl

/-- A pointer leads to one chain. -/
theorem Chain.functional
    {items others : List (Nat × Payload)}
    (chain : Chain heap start items)
    (other : Chain heap start others) :
    items = others := by
  induction items generalizing start others with
  | nil =>
      cases others with
      | nil =>
          rfl
      | cons first rest =>
          cases chain.symm.trans other.1
  | cons first rest inductionHypothesis =>
      rcases first with ⟨address, payload⟩
      rcases chain with ⟨starts, next, here, later⟩
      cases others with
      | nil =>
          cases starts.symm.trans other
      | cons second further =>
          rcases second with ⟨addressThere, payloadThere⟩
          rcases other with ⟨startsThere, nextThere, there, laterThere⟩
          cases Option.some.inj (starts.symm.trans startsThere)
          cases Option.some.inj (here.symm.trans there)
          rw [inductionHypothesis later laterThere]

/-- Every cell of a chain is allocated and holds its payload. -/
theorem Chain.exists_cell
    {items : List (Nat × Payload)}
    (chain : Chain heap start items)
    {item : Nat × Payload}
    (member : item ∈ items) :
    ∃ next, heap item.1 = some ⟨item.2, next⟩ := by
  induction items generalizing start with
  | nil =>
      cases member
  | cons first rest inductionHypothesis =>
      rcases chain with ⟨_, next, here, others⟩
      rcases List.mem_cons.mp member with isFirst | inRest
      · rw [isFirst]
        exact ⟨next, here⟩
      · exact inductionHypothesis others inRest

/-- A memory that agrees on the cells of a chain has the same chain. -/
theorem Chain.congr
    {items : List (Nat × Payload)}
    (chain : Chain heap start items)
    {other : Heap Payload}
    (same : ∀ address ∈ addresses items, other address = heap address) :
    Chain other start items := by
  induction items generalizing start with
  | nil =>
      exact chain
  | cons first rest inductionHypothesis =>
      rcases chain with ⟨starts, next, here, others⟩
      refine ⟨starts, next, ?_, ?_⟩
      · rw [same first.1 List.mem_cons_self]
        exact here
      · exact inductionHypothesis others
          fun address member => same address (List.mem_cons_of_mem _ member)

/-- Writing outside of a chain leaves it. -/
theorem Chain.update
    {items : List (Nat × Payload)}
    (chain : Chain heap start items)
    {address : Nat}
    (outside : address ∉ addresses items)
    (cell : Option (Cell Payload)) :
    Chain (Function.update heap address cell) start items := by
  apply chain.congr
  intro other member
  apply Function.update_of_ne
  rintro rfl
  exact outside member

/-- The first cell of a chain leads to the rest. -/
theorem Chain.tail
    {address : Nat}
    {payload : Payload}
    {rest : List (Nat × Payload)}
    (chain : Chain heap start ((address, payload) :: rest)) :
    ∃ next, heap address = some ⟨payload, next⟩ ∧ Chain heap next rest :=
  chain.2

/-- A chain is followed to its last cell. -/
theorem Chain.findLast
    {earlier : List (Nat × Payload)}
    {head last : Nat}
    {payload : Payload}
    (chain : Chain heap (some head) (earlier ++ [(last, payload)]))
    {fuel : Nat}
    (enough : earlier.length < fuel)
    (count : Nat) :
    findLast heap fuel head count = some (last, count + earlier.length) := by
  induction earlier generalizing head fuel count with
  | nil =>
      rcases chain with ⟨isHead, next, here, isLast⟩
      cases Option.some.inj isHead
      cases isLast
      cases fuel with
      | zero =>
          cases enough
      | succ fuel =>
          simp [LinkedCells.findLast, here]
  | cons first rest inductionHypothesis =>
      rcases chain with ⟨isHead, next, here, others⟩
      cases Option.some.inj isHead
      cases fuel with
      | zero =>
          cases enough
      | succ fuel =>
          have more : rest.length < fuel :=
            Nat.lt_of_succ_lt_succ enough
          cases next with
          | none =>
              cases rest with
              | nil =>
                  cases others.1
              | cons second third =>
                  cases others.1
          | some next =>
              rw [LinkedCells.findLast, here]
              dsimp only
              rw [inductionHypothesis others more, List.length_cons,
                Nat.add_assoc, Nat.add_comm 1]

/-- A new cell is linked behind the last one. -/
theorem Chain.append
    {earlier : List (Nat × Payload)}
    {last fresh : Nat}
    {payload added : Payload}
    (chain : Chain heap start (earlier ++ [(last, payload)]))
    (distinct : (addresses (earlier ++ [(last, payload)])).Nodup)
    (outside : fresh ∉ addresses (earlier ++ [(last, payload)]))
    (allocated : heap fresh = some ⟨added, none⟩) :
    ∃ linked,
      setNext heap last (some fresh) = some linked ∧
        Chain linked start
          (earlier ++ [(last, payload)] ++ [(fresh, added)]) ∧
        ∀ address, address ≠ last → linked address = heap address := by
  rcases chain.exists_cell (List.mem_append_right _ List.mem_cons_self) with
    ⟨_, hasLast⟩
  refine ⟨_, by rw [setNext, hasLast, Option.map_some], ?_,
    fun address differs => Function.update_of_ne differs _ _⟩
  induction earlier generalizing start with
  | nil =>
      rcases chain with ⟨isLast, _⟩
      have notLast : fresh ≠ last := by
        rintro rfl
        exact outside List.mem_cons_self
      refine ⟨isLast, some fresh, Function.update_self _ _ _, rfl, none, ?_,
        rfl⟩
      rw [Function.update_of_ne notLast, allocated]
  | cons first rest inductionHypothesis =>
      rcases chain with ⟨isFirst, next, here, others⟩
      rcases List.nodup_cons.mp distinct with ⟨notLater, distinctRest⟩
      have notLast : first.1 ≠ last := by
        intro same
        apply notLater
        simp [same]
      refine ⟨isFirst, next, ?_, ?_⟩
      · rw [Function.update_of_ne notLast]
        exact here
      · exact inductionHypothesis others distinctRest
          fun member => outside (List.mem_cons_of_mem _ member)

end LibRtlSdr.LinkedCells
