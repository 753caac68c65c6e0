import Mathlib.Data.List.Induction
import Mathlib.Order.Lattice

namespace LibRtlSdr.RateShares

/-!
# Shares of a stream at a lower rate

Values arrive at the rate `fast` and are gathered into shares at the rate `slow`:
the value at place `j` belongs to the share `j * slow / fast`.  After `count` values
`count * slow / fast` shares are complete, and `count * slow % fast` is the progress
towards the next one.  A complete share has `fast / slow` values, or one more.
-/

variable {Value : Type}

/-- The values of a stream that belong to a share. -/
def share (fast slow m : Nat) (values : List Value) : List Value :=
  (values.zipIdx.filter (fun entry => entry.2 * slow / fast = m)).map Prod.fst

/-- The number of complete shares. -/
def complete (fast slow count : Nat) : Nat :=
  count * slow / fast

/-- The progress towards the share under way. -/
def progress (fast slow count : Nat) : Nat :=
  count * slow % fast

section Rates

variable {fast slow : Nat}

theorem progress_lt
    (slow : Nat)
    (positive : 0 < fast)
    (count : Nat) :
    progress fast slow count < fast :=
  Nat.mod_lt _ positive

/-- A value that does not complete the share under way. -/
theorem within_succ
    {count : Nat}
    (within : progress fast slow count + slow < fast) :
    complete fast slow (count + 1) = complete fast slow count ∧
      progress fast slow (count + 1) = progress fast slow count + slow := by
  unfold complete progress at *
  have whole := Nat.div_add_mod (count * slow) fast
  have next :
      (count + 1) * slow =
        count * slow % fast + slow + fast * (count * slow / fast) := by
    rw [Nat.add_mul, Nat.one_mul]
    omega
  rw [next, Nat.add_mul_div_left _ _ (by omega), Nat.add_mul_mod_self_left,
    Nat.div_eq_of_lt within, Nat.mod_eq_of_lt within]
  omega

/-- A value that completes the share under way. -/
theorem complete_succ
    (positive : 0 < fast)
    (slower : slow ≤ fast)
    {count : Nat}
    (completes : fast ≤ progress fast slow count + slow) :
    complete fast slow (count + 1) = complete fast slow count + 1 ∧
      progress fast slow (count + 1) + fast = progress fast slow count + slow := by
  have below := progress_lt slow positive count
  unfold complete progress at *
  have whole := Nat.div_add_mod (count * slow) fast
  have next :
      (count + 1) * slow =
        (count * slow % fast + slow - fast) + fast * (count * slow / fast + 1) := by
    rw [Nat.add_mul, Nat.one_mul, Nat.mul_add]
    omega
  have small : count * slow % fast + slow - fast < fast := by omega
  rw [next, Nat.add_mul_div_left _ _ positive, Nat.add_mul_mod_self_left,
    Nat.div_eq_of_lt small, Nat.mod_eq_of_lt small]
  omega

end Rates

section Shares

variable {fast slow : Nat}

@[simp] theorem share_nil (m : Nat) :
    share fast slow m ([] : List Value) = [] :=
  rfl

/-- A value is added to one share. -/
theorem share_concat
    (m : Nat)
    (values : List Value)
    (value : Value) :
    share fast slow m (values ++ [value]) =
      share fast slow m values ++
        if complete fast slow values.length = m then [value] else [] := by
  unfold share complete
  rw [List.zipIdx_append, List.filter_append, List.map_append]
  congr 1
  by_cases here : values.length * slow / fast = m
  · simp [here]
  · simp [here]

theorem share_concat_self
    (values : List Value)
    (value : Value) :
    share fast slow (complete fast slow values.length) (values ++ [value]) =
      share fast slow (complete fast slow values.length) values ++ [value] := by
  rw [share_concat, if_pos rfl]

theorem share_concat_of_ne
    {m : Nat}
    {values : List Value}
    (other : m ≠ complete fast slow values.length)
    (value : Value) :
    share fast slow m (values ++ [value]) = share fast slow m values := by
  rw [share_concat, if_neg (Ne.symm other), List.append_nil]

theorem complete_mono
    {first second : Nat}
    (le : first ≤ second) :
    complete fast slow first ≤ complete fast slow second :=
  Nat.div_le_div_right (Nat.mul_le_mul_right _ le)

/-- A share that no value has reached is empty. -/
theorem share_unreached
    {m : Nat}
    {values : List Value}
    (unreached : ∀ j < values.length, complete fast slow j < m) :
    share fast slow m values = [] := by
  induction values using List.reverseRecOn with
  | nil =>
      rfl
  | append_singleton values value inductionHypothesis =>
      rw [List.length_append, List.length_singleton] at unreached
      have last := unreached values.length (Nat.lt_succ_self _)
      rw [share_concat_of_ne (Nat.ne_of_gt last)]
      exact inductionHypothesis (fun j lower => unreached j (by omega))

/-- The share behind one that the last value completes. -/
theorem share_next
    {values : List Value}
    {value : Value} :
    share fast slow (complete fast slow values.length + 1) (values ++ [value]) =
      [] := by
  apply share_unreached
  intro j lower
  rw [List.length_append, List.length_singleton] at lower
  have reached := @complete_mono fast slow _ _ (Nat.le_of_lt_succ lower)
  omega

/-- How far the share under way has come. -/
theorem length_share_under_way
    (positive : 0 < slow)
    (slower : slow ≤ fast)
    (values : List Value) :
    (share fast slow (complete fast slow values.length) values).length =
      progress fast slow values.length / slow := by
  induction values using List.reverseRecOn with
  | nil =>
      simp [progress]
  | append_singleton values value inductionHypothesis =>
      rw [List.length_append, List.length_singleton]
      by_cases within : progress fast slow values.length + slow < fast
      · obtain ⟨same, further⟩ := within_succ within
        rw [same, further, share_concat_self, List.length_append,
          List.length_singleton, inductionHypothesis, Nat.add_div_right _ positive]
      · obtain ⟨next, rest⟩ :=
          complete_succ (by omega) slower (Nat.not_lt.mp within)
        have below :=
          progress_lt slow (show 0 < fast by omega) values.length
        rw [next, share_next, List.length_nil, Nat.div_eq_of_lt (by omega)]

/-- A complete share has `fast / slow` values or one more. -/
theorem length_share
    (positive : 0 < slow)
    (slower : slow ≤ fast)
    {m : Nat}
    {values : List Value}
    (isComplete : m < complete fast slow values.length) :
    (share fast slow m values).length = fast / slow ∨
      (share fast slow m values).length = fast / slow + 1 := by
  induction values using List.reverseRecOn with
  | nil =>
      simp [complete] at isComplete
  | append_singleton values value inductionHypothesis =>
      by_cases earlier : m < complete fast slow values.length
      · rw [share_concat_of_ne (Nat.ne_of_lt earlier)]
        exact inductionHypothesis earlier
      · rw [List.length_append, List.length_singleton] at isComplete
        have completes :
            fast ≤ progress fast slow values.length + slow := by
          by_contra within
          rw [(within_succ (Nat.not_le.mp within)).1] at isComplete
          exact earlier isComplete
        have next := (complete_succ (by omega) slower completes).1
        have isLast : m = complete fast slow values.length := by omega
        have below :=
          progress_lt slow (show 0 < fast by omega) values.length
        have most : progress fast slow values.length / slow ≤ fast / slow :=
          Nat.div_le_div_right below.le
        have least :
            fast / slow ≤ progress fast slow values.length / slow + 1 := by
          rw [← Nat.add_div_right _ positive]
          exact Nat.div_le_div_right completes
        rw [isLast, share_concat_self, List.length_append, List.length_singleton,
          length_share_under_way positive slower]
        omega

/-- Every value is in one share: the shares one after the other are the stream. -/
theorem flatten_shares
    (positive : 0 < slow)
    (slower : slow ≤ fast)
    (values : List Value) :
    ((List.range (complete fast slow values.length)).map
          (fun m => share fast slow m values)).flatten ++
        share fast slow (complete fast slow values.length) values =
      values := by
  induction values using List.reverseRecOn with
  | nil =>
      simp [complete]
  | append_singleton values value inductionHypothesis =>
      have earlier :
          (List.range (complete fast slow values.length)).map
              (fun m => share fast slow m (values ++ [value])) =
            (List.range (complete fast slow values.length)).map
              (fun m => share fast slow m values) := by
        apply List.map_congr_left
        intro m inRange
        exact
          share_concat_of_ne (Nat.ne_of_lt (List.mem_range.mp inRange)) value
      rw [List.length_append, List.length_singleton]
      by_cases within : progress fast slow values.length + slow < fast
      · rw [(within_succ within).1, earlier, share_concat_self,
          ← List.append_assoc, inductionHypothesis]
      · rw [(complete_succ (by omega) slower (Nat.not_lt.mp within)).1,
          share_next, List.append_nil, List.range_succ, List.map_append,
          List.flatten_append, earlier, List.map_singleton, share_concat_self,
          List.flatten_singleton, ← List.append_assoc, inductionHypothesis]

end Shares

end LibRtlSdr.RateShares
