import Mathlib.Data.List.Perm.Basic
import Mathlib.Logic.Function.Basic

namespace LibRtlSdr.OverlayWrites

/-!
# Partial writes to a memory

A memory maps addresses to values.  A patch gives new values to some addresses
and leaves the others alone.  Several writers that do not touch each other's
parts may run in any order: what is observed of a part is what its owner made
of it, or what it was before.
-/

variable {Address Value Writer : Type}

/-- Write a patch over a memory. -/
def overlay
    (patch : Address → Option Value)
    (memory : Address → Value) :
    Address → Value :=
  fun address => (patch address).getD (memory address)

theorem overlay_of_some
    {patch : Address → Option Value}
    {memory : Address → Value}
    {address : Address}
    {value : Value}
    (written : patch address = some value) :
    overlay patch memory address = value := by
  simp [overlay, written]

theorem overlay_of_none
    {patch : Address → Option Value}
    {memory : Address → Value}
    {address : Address}
    (untouched : patch address = none) :
    overlay patch memory address = memory address := by
  simp [overlay, untouched]

/-- What no listed writer changes stays as it was. -/
theorem foldl_observe_of_untouched
    {Store Part : Type}
    (observe : Store → Part)
    {write : Store → Writer → Store}
    {writers : List Writer}
    (untouched :
      ∀ writer ∈ writers, ∀ store,
        observe (write store writer) = observe store)
    (store : Store) :
    observe (writers.foldl write store) = observe store := by
  induction writers generalizing store with
  | nil =>
      rfl
  | cons writer rest inductionHypothesis =>
      rw [List.foldl_cons,
        inductionHypothesis
          (fun other member =>
            untouched other (List.mem_cons_of_mem _ member)),
        untouched writer List.mem_cons_self]

/--
What one of the writers determines and the others leave alone is, after any
order of the writers, what the owner makes of it.
-/
theorem foldl_observe_of_owner
    {Store Part : Type}
    (observe : Store → Part)
    {write : Store → Writer → Store}
    {writers : List Writer}
    {owner : Writer}
    (member : owner ∈ writers)
    {value : Part}
    (own : ∀ store, observe (write store owner) = value)
    (others :
      ∀ writer ∈ writers, writer ≠ owner →
        ∀ store, observe (write store writer) = observe store)
    (store : Store) :
    observe (writers.foldl write store) = value := by
  induction writers generalizing store with
  | nil =>
      cases member
  | cons head rest inductionHypothesis =>
      rw [List.foldl_cons]
      have restOthers :
          ∀ writer ∈ rest, writer ≠ owner →
            ∀ current, observe (write current writer) = observe current :=
        fun writer inRest =>
          others writer (List.mem_cons_of_mem _ inRest)
      by_cases inRest : owner ∈ rest
      · exact inductionHypothesis inRest restOthers _
      · have isHead : owner = head :=
          (List.mem_cons.mp member).resolve_right inRest
        subst isHead
        have restSilent :
            ∀ writer ∈ rest, ∀ current,
              observe (write current writer) = observe current := by
          intro writer writerMember
          apply restOthers writer writerMember
          intro same
          exact inRest (same ▸ writerMember)
        rw [foldl_observe_of_untouched observe restSilent, own]

/-- A loop that stores `entry index` at each listed index of an array. -/
theorem foldl_update_apply
    [DecidableEq Address]
    (entry : Address → Value)
    (indices : List Address)
    (array : Address → Value)
    (query : Address) :
    (indices.foldl
        (fun current index =>
          Function.update current index (entry index))
        array) query =
      if query ∈ indices then entry query else array query := by
  induction indices generalizing array with
  | nil =>
      simp
  | cons index rest inductionHypothesis =>
      rw [List.foldl_cons, inductionHypothesis]
      by_cases inRest : query ∈ rest
      · simp [inRest]
      · by_cases same : query = index
        · simp [same]
        · simp [inRest, same]

end LibRtlSdr.OverlayWrites
