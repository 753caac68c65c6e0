import Mathlib.Algebra.Order.Ring.Nat
import Mathlib.Tactic.Ring

namespace LibRtlSdr.GreedyFraction

/-!
# A fraction digit by digit

A quantity is written as a binary fraction of a whole: the digits are chosen
greedily, each for a half of the part before it, and the parts are cut to whole
numbers.  The search stops when little enough is left, or behind the last digit;
it fails when too much is left that no digit takes.
-/

/--
The digits that are left to choose, what is left of the quantity, and the sum of
the digits so far, in units of the last one.
-/
def expand (whole enough digits : Nat) : Nat → Nat → Nat → Option (Nat × Nat)
  | 0, rest, sum =>
      if enough < rest then none else some (sum, rest)
  | left + 1, rest, sum =>
      let part := whole / 2 ^ (digits - left)
      if enough < rest then
        if part < rest then
          if left = 0 then
            some (sum + 2 ^ left, rest - part)
          else
            expand whole enough digits left (rest - part) (sum + 2 ^ left)
        else
          expand whole enough digits left rest sum
      else
        some (sum, rest)

variable {whole enough digits left rest sum total final : Nat}

/-- A part is the fraction that its digit stands for, up to one. -/
theorem part_bounds
    (whole : Nat)
    (inside : left ≤ digits) :
    2 ^ digits * (whole / 2 ^ (digits - left)) ≤ whole * 2 ^ left ∧
      whole * 2 ^ left ≤
        2 ^ digits * (whole / 2 ^ (digits - left)) + 2 ^ digits := by
  have split : 2 ^ digits = 2 ^ (digits - left) * 2 ^ left := by
    rw [← pow_add, Nat.sub_add_cancel inside]
  have below := Nat.div_mul_le_self whole (2 ^ (digits - left))
  have above :=
    Nat.lt_div_mul_add (Nat.two_pow_pos (digits - left)) (a := whole)
  constructor
  · calc
      2 ^ digits * (whole / 2 ^ (digits - left)) =
          whole / 2 ^ (digits - left) * 2 ^ (digits - left) * 2 ^ left := by
        rw [split]
        ring
      _ ≤ whole * 2 ^ left := Nat.mul_le_mul_right _ below
  · calc
      whole * 2 ^ left ≤
          (whole / 2 ^ (digits - left) * 2 ^ (digits - left) +
            2 ^ (digits - left)) * 2 ^ left :=
        Nat.mul_le_mul_right _ above.le
      _ = 2 ^ digits * (whole / 2 ^ (digits - left)) + 2 ^ digits := by
        rw [split]
        ring

/-- Each part is about half of the part before it. -/
theorem part_halves
    (whole : Nat)
    (inside : left < digits) :
    whole / 2 ^ (digits - (left + 1)) ≤
      2 * (whole / 2 ^ (digits - left)) + 1 := by
  have power : 2 ^ (digits - left) = 2 ^ (digits - (left + 1)) * 2 := by
    rw [← pow_succ]
    congr 1
    omega
  rw [power, ← Nat.div_div_eq_div_mul]
  omega

/-- What a choice of digits stands for, and what it leaves over. -/
structure Expands
    (whole enough digits left rest added final : Nat) : Prop where
  /-- The sum is at most that of all digits. -/
  bounded : added < 2 ^ left
  /-- The quantity is at most the sum and what is left over. -/
  lower : 2 ^ digits * rest ≤ whole * added + 2 ^ digits * final
  /-- It is at least that, up to one for each digit. -/
  upper :
    whole * added + 2 ^ digits * final ≤ 2 ^ digits * rest + 2 ^ digits * left
  leftover : final ≤ enough ∨ final ≤ whole / 2 ^ digits + digits

/-- A choice that stops at once. -/
theorem Expands.stop
    (little : rest ≤ enough) :
    Expands whole enough digits left rest 0 rest where
  bounded := Nat.two_pow_pos left
  lower := by omega
  upper := by omega
  leftover := .inl little

/-- A digit that is not chosen. -/
theorem Expands.skip
    {added : Nat}
    (expands : Expands whole enough digits left rest added final) :
    Expands whole enough digits (left + 1) rest added final where
  bounded := by
    have bounded := expands.bounded
    rw [pow_succ]
    omega
  lower := expands.lower
  upper := by
    have upper := expands.upper
    rw [Nat.mul_add]
    omega
  leftover := expands.leftover

/-- A digit that is chosen. -/
theorem Expands.take
    {added : Nat}
    (inside : left ≤ digits)
    (fits : whole / 2 ^ (digits - left) ≤ rest)
    (expands :
      Expands whole enough digits left
        (rest - whole / 2 ^ (digits - left)) added final) :
    Expands whole enough digits (left + 1) rest (2 ^ left + added) final := by
  rcases part_bounds whole inside with ⟨below, above⟩
  have lower := expands.lower
  have upper := expands.upper
  have restored :
      2 ^ digits * rest =
        2 ^ digits * (rest - whole / 2 ^ (digits - left)) +
          2 ^ digits * (whole / 2 ^ (digits - left)) := by
    rw [← Nat.mul_add, Nat.sub_add_cancel fits]
  constructor
  · have bounded := expands.bounded
    rw [pow_succ]
    omega
  · rw [Nat.mul_add]
    omega
  · rw [Nat.mul_add, Nat.mul_add (2 ^ digits) left 1]
    omega
  · exact expands.leftover

/--
The digits that are found.  The invariant is that what is left is at most the
part before the next digit, and one more for each digit so far.
-/
theorem expand_expands
    (inside : left ≤ digits)
    (bounded : rest ≤ whole / 2 ^ (digits - left) + (digits - left))
    (found : expand whole enough digits left rest sum = some (total, final)) :
    ∃ added,
      total = sum + added ∧
        Expands whole enough digits left rest added final := by
  induction left generalizing rest sum with
  | zero =>
      unfold expand at found
      split at found
      · cases found
      · rename_i little
        cases found
        exact ⟨0, rfl, .stop (Nat.le_of_not_lt little)⟩
  | succ left inductionHypothesis =>
      have halves := part_halves whole inside
      unfold expand at found
      dsimp only at found
      split at found
      · split at found
        · rename_i fits
          split at found
          · rename_i last
            subst last
            cases found
            refine ⟨2 ^ 0, rfl, ?_⟩
            have leftover :
                rest - whole / 2 ^ (digits - 0) ≤
                  whole / 2 ^ digits + digits := by
              rw [Nat.sub_zero] at halves ⊢
              omega
            have ended :
                Expands whole enough digits 0
                  (rest - whole / 2 ^ (digits - 0)) 0
                  (rest - whole / 2 ^ (digits - 0)) :=
              ⟨by decide, by omega, by omega, .inr leftover⟩
            exact ended.take (Nat.zero_le digits) fits.le
          · rcases inductionHypothesis (by omega) (by omega) found with
              ⟨added, rfl, expands⟩
            exact ⟨2 ^ left + added, Nat.add_assoc _ _ _,
              expands.take (by omega) fits.le⟩
        · rcases inductionHypothesis (by omega) (by omega) found with
            ⟨added, rfl, expands⟩
          exact ⟨added, rfl, expands.skip⟩
      · rename_i little
        cases found
        exact ⟨0, rfl, .stop (Nat.le_of_not_lt little)⟩

/-- With a last part that is little enough the choice never fails. -/
theorem expand_isSome
    (small : whole / 2 ^ digits ≤ enough)
    (started : 0 < left ∨ rest ≤ enough) :
    ∃ outcome, expand whole enough digits left rest sum = some outcome := by
  induction left generalizing rest sum with
  | zero =>
      have little := started.resolve_left (Nat.lt_irrefl 0)
      refine ⟨(sum, rest), ?_⟩
      unfold expand
      exact if_neg (Nat.not_lt.mpr little)
  | succ left inductionHypothesis =>
      unfold expand
      dsimp only
      split
      · split
        · split
          · exact ⟨_, rfl⟩
          · exact inductionHypothesis (.inl (by omega))
        · rename_i unfit
          apply inductionHypothesis
          rcases Nat.eq_zero_or_pos left with rfl | more
          · rw [Nat.sub_zero] at unfit
            exact .inr ((Nat.le_of_not_lt unfit).trans small)
          · exact .inl more
      · exact ⟨_, rfl⟩

/-- What is at most the last part, and still too much, is taken by no digit. -/
theorem expand_eq_none
    (tooMuch : enough < rest)
    (unfit : rest ≤ whole / 2 ^ digits) :
    expand whole enough digits left rest sum = none := by
  induction left with
  | zero =>
      unfold expand
      exact if_pos tooMuch
  | succ left inductionHypothesis =>
      have larger : whole / 2 ^ digits ≤ whole / 2 ^ (digits - left) :=
        Nat.div_le_div_left
          (Nat.pow_le_pow_right (by decide) (Nat.sub_le digits left))
          (Nat.two_pow_pos _)
      unfold expand
      dsimp only
      rw [if_pos tooMuch, if_neg (Nat.not_lt.mpr (unfit.trans larger))]
      exact inductionHypothesis

end LibRtlSdr.GreedyFraction
