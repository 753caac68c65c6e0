import Mathlib.Data.List.Basic

namespace LibRtlSdr.FlushedFolds

/-!
# Accumulators that are flushed

An accumulator takes items one by one, and from time to time it is read out and starts
again from nothing.  What is read out is the fold of the items since the last time, so
each item is in exactly one of the folds, or still in the accumulator.
-/

variable {Item Acc Acc' : Type}

/-- An item, or the accumulator is read out. -/
inductive Event (Item : Type) where
  | item (value : Item)
  | flush

/-- The accumulator, and what has been read out of it. -/
structure State (Acc : Type) where
  acc : Acc
  flushed : List Acc

/-- One event. -/
def step
    (feed : Acc → Item → Acc)
    (empty : Acc)
    (s : State Acc) :
    Event Item → State Acc
  | .item value => { s with acc := feed s.acc value }
  | .flush => ⟨empty, s.flushed ++ [s.acc]⟩

/-- The events of a run. -/
def run
    (feed : Acc → Item → Acc)
    (empty : Acc)
    (s : State Acc)
    (events : List (Event Item)) :
    State Acc :=
  events.foldl (step feed empty) s

/-- The items themselves, in the stretches between two flushes. -/
def segments (events : List (Event Item)) : State (List Item) :=
  run (fun items value => items ++ [value]) [] ⟨[], []⟩ events

/-- All items of a run. -/
def items (events : List (Event Item)) : List Item :=
  events.filterMap fun
    | .item value => some value
    | .flush => none

/-- What is read out, seen through a function. -/
def State.map (h : Acc → Acc') (s : State Acc) : State Acc' :=
  ⟨h s.acc, s.flushed.map h⟩

section Run

variable (feed : Acc → Item → Acc) (empty : Acc)

@[simp] theorem run_nil (s : State Acc) : run feed empty s [] = s :=
  rfl

@[simp] theorem run_cons
    (s : State Acc)
    (event : Event Item)
    (events : List (Event Item)) :
    run feed empty s (event :: events) = run feed empty (step feed empty s event) events :=
  rfl

theorem run_append
    (s : State Acc)
    (first second : List (Event Item)) :
    run feed empty s (first ++ second) =
      run feed empty (run feed empty s first) second :=
  List.foldl_append

/-- A stretch without a flush is a fold. -/
theorem run_items
    (s : State Acc)
    (values : List Item) :
    run feed empty s (values.map .item) = ⟨values.foldl feed s.acc, s.flushed⟩ := by
  induction values generalizing s with
  | nil =>
      rfl
  | cons value values inductionHypothesis =>
      rw [List.map_cons, run_cons, inductionHypothesis]
      rfl

variable {feed empty} {feed' : Acc' → Item → Acc'} {empty' : Acc'}

/-- A function that respects the items respects the run. -/
theorem map_run
    {h : Acc → Acc'}
    (feeds : ∀ acc value, h (feed acc value) = feed' (h acc) value)
    (starts : h empty = empty')
    (s : State Acc)
    (events : List (Event Item)) :
    (run feed empty s events).map h = run feed' empty' (s.map h) events := by
  induction events generalizing s with
  | nil =>
      rfl
  | cons event events inductionHypothesis =>
      rw [run_cons, run_cons, inductionHypothesis]
      congr 1
      cases event with
      | item value =>
          unfold step State.map
          dsimp only
          rw [feeds]
      | flush =>
          unfold step State.map
          dsimp only
          rw [starts, List.map_append, List.map_singleton]

/-- What is read out is the fold of the items since the last time. -/
theorem run_eq_segments (events : List (Event Item)) :
    run feed empty ⟨empty, []⟩ events =
      (segments events).map (fun values => values.foldl feed empty) := by
  symm
  apply map_run
  · intro values value
    exact List.foldl_concat feed empty value values
  · rfl

end Run

/-- Each item is in exactly one stretch, and the stretches are in order. -/
theorem segments_items (events : List (Event Item)) :
    (segments events).flushed.flatten ++ (segments events).acc = items events := by
  have general :
      ∀ (s : State (List Item)),
        (run (fun values value => values ++ [value]) [] s events).flushed.flatten ++
            (run (fun values value => values ++ [value]) [] s events).acc =
          s.flushed.flatten ++ s.acc ++ items events := by
    induction events with
    | nil =>
        intro s
        exact (List.append_nil _).symm
    | cons event events inductionHypothesis =>
        intro s
        rw [run_cons, inductionHypothesis]
        cases event with
        | item value =>
            simp [step, items]
        | flush =>
            simp [step, items]
  exact general ⟨[], []⟩

end LibRtlSdr.FlushedFolds
