import Mathlib.Data.Nat.Bitwise

namespace LibRtlSdr.FlagWord

/-!
# Machine words used as sets of flags

A program that waits for several parties keeps one bit per party in a word,
raises bits with `|=`, tests them with `&`, and compares the whole word with a
mask.  The lemmas below move between the word and the set of bits it holds.
-/

/-- The word that has exactly the listed bits set, raised one after another. -/
def wordOf (bits : List Nat) : Nat :=
  bits.foldl (fun word bit => word ||| 1 <<< bit) 0

/-- Every bit that is set in `word` is set in `mask`. -/
def Within (word mask : Nat) : Prop :=
  ∀ bit, word.testBit bit = true → mask.testBit bit = true

/-- A shifted one has exactly one bit. -/
@[simp] theorem testBit_one_shiftLeft (bit query : Nat) :
    (1 <<< bit).testBit query = decide (query = bit) := by
  rw [Nat.one_shiftLeft, Nat.testBit_two_pow]
  simp [eq_comm]

/-- Raising listed bits in a word adds exactly those bits. -/
theorem testBit_foldl_raise
    (bits : List Nat)
    (word query : Nat) :
    (bits.foldl (fun word bit => word ||| 1 <<< bit) word).testBit query =
      (word.testBit query || decide (query ∈ bits)) := by
  induction bits generalizing word with
  | nil =>
      simp
  | cons bit rest inductionHypothesis =>
      rw [List.foldl_cons, inductionHypothesis, Nat.testBit_or,
        testBit_one_shiftLeft, Bool.or_assoc]
      simp [List.mem_cons]

/-- The bits of a word made from a list are the members of the list. -/
@[simp] theorem testBit_wordOf (bits : List Nat) (query : Nat) :
    (wordOf bits).testBit query = decide (query ∈ bits) := by
  simp [wordOf, testBit_foldl_raise]

/-- Raising one more bit is listing it last. -/
theorem wordOf_concat (bits : List Nat) (bit : Nat) :
    wordOf (bits ++ [bit]) = wordOf bits ||| 1 <<< bit := by
  simp [wordOf, List.foldl_append]

/-- Two such words agree exactly when the lists have the same members. -/
theorem wordOf_eq_iff {first second : List Nat} :
    wordOf first = wordOf second ↔
      ∀ bit, bit ∈ first ↔ bit ∈ second := by
  constructor
  · intro same bit
    have sameBit := congrArg (fun word => word.testBit bit) same
    simpa using sameBit
  · intro sameMembers
    apply Nat.eq_of_testBit_eq
    intro bit
    simp [sameMembers bit]

/-- The mask of the first `count` bits is `2 ^ count - 1`. -/
theorem wordOf_range (count : Nat) :
    wordOf (List.range count) = 2 ^ count - 1 := by
  apply Nat.eq_of_testBit_eq
  intro bit
  simp [Nat.testBit_two_pow_sub_one]

/-- Testing a word against one bit is testing that bit. -/
theorem and_one_shiftLeft_eq_zero_iff {word bit : Nat} :
    word &&& 1 <<< bit = 0 ↔ word.testBit bit = false := by
  constructor
  · intro empty
    have atBit := congrArg (fun result => result.testBit bit) empty
    simpa [Nat.testBit_and] using atBit
  · intro clear
    apply Nat.eq_of_testBit_eq
    intro query
    rw [Nat.testBit_and, testBit_one_shiftLeft, Nat.zero_testBit]
    by_cases same : query = bit
    · simp [same, clear]
    · simp [same]

namespace Within

/-- A word within a mask that has all bits of the mask is the mask. -/
theorem antisymm
    {word mask : Nat}
    (within : Within word mask)
    (covers : Within mask word) :
    word = mask := by
  apply Nat.eq_of_testBit_eq
  intro bit
  rw [Bool.eq_iff_iff]
  exact ⟨within bit, covers bit⟩

end Within

end LibRtlSdr.FlagWord
