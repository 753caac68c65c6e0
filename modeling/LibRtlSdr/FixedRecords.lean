import Mathlib.Data.List.Basic

namespace LibRtlSdr.FixedRecords

/-!
# Streams of records of one size

A stream is cut into records of a fixed size; what is left over is pending.
Two lemmas say what more elements do: they lengthen the pending part, or they
complete one record.
-/

variable {Value : Type}

/-- The complete records of a stream. -/
def records (size : Nat) (stream : List Value) : List (List Value) :=
  if 0 < size ∧ size ≤ stream.length then
    stream.take size :: records size (stream.drop size)
  else
    []
termination_by stream.length
decreasing_by
  rw [List.length_drop]
  omega

/-- What follows the last complete record. -/
def pending (size : Nat) (stream : List Value) : List Value :=
  if 0 < size ∧ size ≤ stream.length then
    pending size (stream.drop size)
  else
    stream
termination_by stream.length
decreasing_by
  rw [List.length_drop]
  omega

/-- A stream without a complete record is pending. -/
theorem records_of_short
    {size : Nat}
    {stream : List Value}
    (short : stream.length < size) :
    records size stream = [] ∧ pending size stream = stream := by
  rw [records, pending, if_neg (by omega), if_neg (by omega)]
  exact ⟨rfl, rfl⟩

/-- A stream that starts with a complete record. -/
theorem records_append_left
    {size : Nat}
    {first : List Value}
    (positive : 0 < size)
    (length : first.length = size)
    (rest : List Value) :
    records size (first ++ rest) = first :: records size rest ∧
      pending size (first ++ rest) = pending size rest := by
  have complete : 0 < size ∧ size ≤ (first ++ rest).length := by
    rw [List.length_append]
    omega
  rw [records, pending, if_pos complete, if_pos complete,
    List.take_left' length, List.drop_left' length]
  exact ⟨rfl, rfl⟩

/-- Fewer elements are pending than make a record. -/
theorem length_pending_lt
    {size : Nat}
    (positive : 0 < size)
    (stream : List Value) :
    (pending size stream).length < size := by
  induction stream using pending.induct size with
  | case1 stream complete inductionHypothesis =>
      rw [pending, if_pos complete]
      exact inductionHypothesis
  | case2 stream short =>
      rw [pending, if_neg short]
      omega

/-- More elements are put behind the pending ones. -/
theorem records_append
    (size : Nat)
    (stream more : List Value) :
    records size (stream ++ more) =
        records size stream ++ records size (pending size stream ++ more) ∧
      pending size (stream ++ more) =
        pending size (pending size stream ++ more) := by
  induction stream using pending.induct size with
  | case1 stream complete inductionHypothesis =>
      have length : (stream.take size).length = size :=
        List.length_take_of_le complete.2
      have split :
          stream ++ more = stream.take size ++ (stream.drop size ++ more) := by
        rw [← List.append_assoc, List.take_append_drop]
      have own := records_append_left complete.1 length (stream.drop size)
      rw [List.take_append_drop] at own
      have cut :=
        records_append_left complete.1 length (stream.drop size ++ more)
      rw [split, cut.1, cut.2, own.1, own.2, inductionHypothesis.1,
        inductionHypothesis.2]
      exact ⟨rfl, rfl⟩
  | case2 stream short =>
      rw [records.eq_def size stream, pending.eq_def size stream,
        if_neg short, if_neg short, List.nil_append]
      exact ⟨rfl, rfl⟩

/-- Elements that do not complete a record are pending. -/
theorem records_append_of_short
    {size : Nat}
    {stream more : List Value}
    (short : (pending size stream ++ more).length < size) :
    records size (stream ++ more) = records size stream ∧
      pending size (stream ++ more) = pending size stream ++ more := by
  have appended := records_append size stream more
  have rest := records_of_short short
  rw [rest.1, rest.2, List.append_nil] at appended
  exact appended

/-- Elements that complete a record leave nothing pending. -/
theorem records_append_of_complete
    {size : Nat}
    {stream more : List Value}
    (positive : 0 < size)
    (complete : (pending size stream ++ more).length = size) :
    records size (stream ++ more) =
        records size stream ++ [pending size stream ++ more] ∧
      pending size (stream ++ more) = [] := by
  have appended := records_append size stream more
  have last := records_append_left positive complete []
  have none : records size ([] : List Value) = [] ∧ pending size [] = [] :=
    records_of_short positive
  rw [List.append_nil, none.1, none.2] at last
  rw [last.1, last.2] at appended
  exact appended

end LibRtlSdr.FixedRecords
