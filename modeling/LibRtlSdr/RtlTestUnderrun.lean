import LibRtlSdr.ConsecutivePairs
import Mathlib.Algebra.Order.BigOperators.Group.List
import Mathlib.Algebra.Order.Group.Nat
import Mathlib.Algebra.Order.Ring.Int

namespace LibRtlSdr.RtlTest

open ConsecutivePairs (pairs)

/-!
# Counting lost bytes

In test mode the dongle sends a counter modulo 256.  `underrun_test` keeps the value it
expects next and adds up how far the bytes it gets differ from it.  The difference is an
absolute one: it is the number of dropped bytes only where the counter does not pass from
255 to 0 on the way.
-/

/-! ## Source -/

/-- `unsigned char *buf, uint32_t len`. -/
structure Buffer where
  bytes : Nat → UInt8
  len : UInt32

/-- The bytes that a buffer delivers. -/
def Buffer.delivered (buf : Buffer) : List UInt8 :=
  (List.range buf.len.toNat).map buf.bytes

/-- The static variables of `underrun_test`, the two counters, and what was printed. -/
structure Underrun where
  bcnt : UInt8
  uninit : Bool
  totalSamples : UInt32
  droppedSamples : UInt32
  /-- "lost at least %d bytes". -/
  reports : List UInt32

def Underrun.initial : Underrun where
  bcnt := 0
  uninit := true
  totalSamples := 0
  droppedSamples := 0
  reports := []

/-- `bcnt` and `lost` behind a byte. -/
def underrunByte (count : UInt8 × UInt32) (byte : UInt8) : UInt8 × UInt32 :=
  if count.1 ≠ byte then
    (byte + 1,
      count.2 +
        (if byte > count.1 then (byte - count.1).toUInt32 else (count.1 - byte).toUInt32))
  else
    (count.1 + 1, count.2)

/-- `underrun_test`. -/
def underrunTest (s : Underrun) (buf : Buffer) (mute : Bool) : Underrun :=
  let bcnt := if s.uninit then buf.bytes 0 else s.bcnt
  let count := buf.delivered.foldl underrunByte (bcnt, 0)
  let lost := count.2
  { bcnt := count.1
    uninit := false
    totalSamples := s.totalSamples + buf.len
    droppedSamples := s.droppedSamples + lost
    reports := if !mute && lost ≠ 0 then s.reports ++ [lost] else s.reports }

/-- The calls of a run, each with its buffer and `mute`. -/
def underrunTests (s : Underrun) (calls : List (Buffer × Bool)) : Underrun :=
  calls.foldl (fun s call => underrunTest s call.1 call.2) s

/-! ## What is counted -/

/-- The absolute difference that a byte adds. -/
def distance (expected byte : UInt8) : Nat :=
  if byte > expected then (byte - expected).toNat else (expected - byte).toNat

/-- The sum of the differences. -/
def losses (before : UInt8) (bytes : List UInt8) : Nat :=
  ((pairs before bytes).map (fun pair => distance (pair.2 + 1) pair.1)).sum

theorem losses_append
    (before : UInt8)
    (first second : List UInt8) :
    losses before (first ++ second) =
      losses before first + losses (first.getLastD before) second := by
  unfold losses
  rw [ConsecutivePairs.pairs_append, List.map_append, List.sum_append]

/-- A byte moves the expected value behind itself and adds its difference. -/
theorem underrunByte_eq (expected byte : UInt8) (lost : UInt32) :
    underrunByte (expected, lost) byte =
      (byte + 1, lost + UInt32.ofNat (distance expected byte)) := by
  unfold underrunByte distance
  dsimp only
  split
  · split <;> simp
  · rename_i same
    obtain rfl : expected = byte := not_not.mp same
    simp

/-- The loop over a buffer. -/
theorem foldl_underrunByte
    (before : UInt8)
    (bytes : List UInt8)
    (lost : UInt32) :
    bytes.foldl underrunByte (before + 1, lost) =
      (bytes.getLastD before + 1, lost + UInt32.ofNat (losses before bytes)) := by
  induction bytes generalizing before lost with
  | nil =>
      simp [losses, pairs]
  | cons byte rest inductionHypothesis =>
      rw [List.foldl_cons, underrunByte_eq, inductionHypothesis, List.getLastD_cons]
      unfold losses
      rw [pairs, List.map_cons, List.sum_cons, UInt32.ofNat_add, UInt32.add_assoc]

/-- What a call finds in `bcnt` is what it expects, from the first call on. -/
theorem underrunTest_uninit
    (s : Underrun)
    (isUninit : s.uninit = true)
    (buf : Buffer)
    (mute : Bool) :
    underrunTest s buf mute =
      underrunTest { s with bcnt := buf.bytes 0, uninit := false } buf mute := by
  unfold underrunTest
  rw [isUninit]
  rfl

/-- The calls count what differs in the whole stream. -/
theorem underrunTests_eq
    (s : Underrun)
    (isInit : s.uninit = false)
    (before : UInt8)
    (expects : s.bcnt = before + 1)
    (calls : List (Buffer × Bool)) :
    (underrunTests s calls).droppedSamples =
      s.droppedSamples +
        UInt32.ofNat (losses before (calls.flatMap (fun call => call.1.delivered))) := by
  induction calls generalizing s before with
  | nil =>
      simp [underrunTests, losses, pairs]
  | cons call rest inductionHypothesis =>
      have loop := foldl_underrunByte before call.1.delivered 0
      have next := inductionHypothesis (underrunTest s call.1 call.2) rfl
        (call.1.delivered.getLastD before)
        (by
          unfold underrunTest
          rw [isInit, expects]
          dsimp only
          rw [if_neg (by decide), loop])
      have counted :
          (underrunTest s call.1 call.2).droppedSamples =
            s.droppedSamples + UInt32.ofNat (losses before call.1.delivered) := by
        unfold underrunTest
        rw [isInit, expects]
        dsimp only
        rw [if_neg (by decide), loop, UInt32.zero_add]
      rw [List.flatMap_cons, losses_append, UInt32.ofNat_add, ← UInt32.add_assoc, ← counted,
        ← next]
      rfl

/-! ## Streams of the counter -/

/-- The byte of the counter at a position of the stream. -/
def byteAt (position : Nat) : UInt8 :=
  UInt8.ofNat position

/-- Each delivered position behind the first, with the delivered position before it. -/
def deliveredPairs : List Nat → List (Nat × Nat)
  | [] => []
  | first :: rest => pairs first rest

/-- The bytes dropped in front of a delivered position. -/
def runLength (pair : Nat × Nat) : Nat :=
  pair.1 - pair.2 - 1

/-- The bytes dropped behind the first delivered one. -/
def dropped (positions : List Nat) : Nat :=
  ((deliveredPairs positions).map runLength).sum

/-- "lost at least %d bytes": no more are counted than were dropped, and none only where
every run is one of whole rounds of the counter. -/
def CountsAtLeast (positions : List Nat) (s : Underrun) : Prop :=
  s.droppedSamples.toNat ≤ dropped positions ∧
    (s.droppedSamples = 0 ↔ ∀ pair ∈ deliveredPairs positions, 256 ∣ runLength pair)

/-- Without its whole rounds, the run passes from 255 to 0, or ends at 0. -/
def PassesZero (pair : Nat × Nat) : Prop :=
  256 ≤ (pair.2 + 1) % 256 + runLength pair % 256

instance (pair : Nat × Nat) : Decidable (PassesZero pair) :=
  inferInstanceAs (Decidable (_ ≤ _))

/-- What a run adds beyond its length: its whole rounds are missed, and where it passes
zero, the rest of the round is counted in place of the run. -/
def excess (pair : Nat × Nat) : Int :=
  let length : Int := runLength pair
  if PassesZero pair then 256 - 2 * (length % 256) - 256 * (length / 256)
  else -(256 * (length / 256))

/-- An empty first buffer leaves its old first byte in `bcnt`. -/
def stale (calls : List (Buffer × Bool)) (positions : List Nat) : Nat :=
  match calls, positions with
  | call :: _, first :: _ => distance (call.1.bytes 0) (byteAt first)
  | _, _ => 0

/-- The runs that pass zero add no more than the others miss, and the counter of 32 bits
does not come to 0 by itself. -/
def ExcessCovered (calls : List (Buffer × Bool)) (positions : List Nat) : Prop :=
  let surplus := stale calls positions + ((deliveredPairs positions).map excess).sum
  surplus ≤ 2 ^ 32 * ((dropped positions + surplus) / 2 ^ 32) ∧
    if ∀ pair ∈ deliveredPairs positions, 256 ∣ runLength pair then
      stale calls positions = 0
    else
      ¬ 2 ^ 32 ∣ dropped positions + surplus

theorem distance_eq (expected byte : UInt8) :
    distance expected byte =
      if expected.toNat < byte.toNat then
        byte.toNat - expected.toNat
      else
        expected.toNat - byte.toNat := by
  unfold distance
  have below : byte > expected ↔ expected.toNat < byte.toNat := UInt8.lt_iff_toNat_lt
  split
  · rename_i isAbove
    have isBelow := below.mp isAbove
    rw [if_pos isBelow, UInt8.toNat_sub_of_le _ _ (UInt8.le_iff_toNat_le.mpr (by omega))]
  · rename_i notAbove
    have isAtMost : ¬ expected.toNat < byte.toNat := fun isBelow => notAbove (below.mpr isBelow)
    rw [if_neg isAtMost, UInt8.toNat_sub_of_le _ _ (UInt8.le_iff_toNat_le.mpr (by omega))]

/-- A run adds its length and its excess. -/
theorem distance_run
    {pair : Nat × Nat}
    (isLater : pair.2 < pair.1) :
    (distance (byteAt pair.2 + 1) (byteAt pair.1) : Int) = runLength pair + excess pair := by
  have expected : (byteAt pair.2 + 1).toNat = (pair.2 + 1) % 256 := by
    unfold byteAt
    rw [UInt8.toNat_add, UInt8.toNat_ofNat']
    exact Nat.mod_add_mod pair.2 256 1
  have byte : (byteAt pair.1).toNat = pair.1 % 256 := UInt8.toNat_ofNat'
  have position : pair.1 = pair.2 + 1 + runLength pair := by
    unfold runLength
    omega
  rw [distance_eq, expected, byte]
  unfold excess
  dsimp only
  by_cases passes : PassesZero pair
  · rw [if_pos passes]
    unfold PassesZero at passes
    split <;> omega
  · rw [if_neg passes]
    unfold PassesZero at passes
    split <;> omega

/-- A run adds nothing when it is one of whole rounds. -/
theorem distance_eq_zero
    {pair : Nat × Nat}
    (isLater : pair.2 < pair.1) :
    distance (byteAt pair.2 + 1) (byteAt pair.1) = 0 ↔ 256 ∣ runLength pair := by
  have counted := distance_run isLater
  unfold excess at counted
  dsimp only at counted
  by_cases passes : PassesZero pair
  · rw [if_pos passes] at counted
    unfold PassesZero at passes
    omega
  · rw [if_neg passes] at counted
    omega

/-- The differences of a stream of the counter. -/
theorem losses_positions
    (expected : UInt8)
    (first : Nat)
    (rest : List Nat) :
    losses (expected - 1) ((first :: rest).map byteAt) =
      distance expected (byteAt first) +
        ((pairs first rest).map
          (fun pair => distance (byteAt pair.2 + 1) (byteAt pair.1))).sum := by
  unfold losses
  rw [List.map_cons, pairs, ConsecutivePairs.pairs_map, List.map_cons, List.sum_cons,
    List.map_map, UInt8.sub_add_cancel]
  rfl

/-- Delivered positions grow. -/
theorem deliveredPairs_lt
    {positions : List Nat}
    (sorted : positions.Pairwise (· < ·)) :
    ∀ pair ∈ deliveredPairs positions, pair.2 < pair.1 := by
  cases positions with
  | nil =>
      intro pair member
      exact absurd member List.not_mem_nil
  | cons first rest =>
      unfold deliveredPairs
      dsimp only
      induction rest generalizing first with
      | nil =>
          intro pair member
          exact absurd member List.not_mem_nil
      | cons next rest inductionHypothesis =>
          obtain ⟨isFirst, sortedRest⟩ := List.pairwise_cons.mp sorted
          intro pair member
          rw [pairs, List.mem_cons] at member
          rcases member with rfl | later
          · exact isFirst next List.mem_cons_self
          · exact inductionHypothesis next sortedRest pair later

/-- The sum of the differences by the runs. -/
theorem sum_distance
    {positions : List Nat}
    (sorted : positions.Pairwise (· < ·)) :
    ((((deliveredPairs positions).map
        (fun pair => distance (byteAt pair.2 + 1) (byteAt pair.1))).sum : Nat) : Int) =
      dropped positions + ((deliveredPairs positions).map excess).sum := by
  have isLater := deliveredPairs_lt sorted
  unfold dropped
  generalize deliveredPairs positions = runs at isLater ⊢
  induction runs with
  | nil =>
      rfl
  | cons run rest inductionHypothesis =>
      have first := distance_run (isLater run List.mem_cons_self)
      have others :=
        inductionHypothesis (fun pair member => isLater pair (List.mem_cons_of_mem _ member))
      simp only [List.map_cons, List.sum_cons]
      omega

/-- Without runs of other lengths the sum is zero, and with them it is not. -/
theorem sum_distance_eq_zero
    {positions : List Nat}
    (sorted : positions.Pairwise (· < ·)) :
    ((deliveredPairs positions).map
        (fun pair => distance (byteAt pair.2 + 1) (byteAt pair.1))).sum = 0 ↔
      ∀ pair ∈ deliveredPairs positions, 256 ∣ runLength pair := by
  have isLater := deliveredPairs_lt sorted
  rw [List.sum_eq_zero_iff, List.forall_mem_map]
  exact forall₂_congr (fun pair member => distance_eq_zero (isLater pair member))

/-- The counter of 32 bits behind the calls. -/
theorem droppedSamples_eq
    {positions : List Nat}
    {calls : List (Buffer × Bool)}
    (carries : calls.flatMap (fun call => call.1.delivered) = positions.map byteAt) :
    (underrunTests Underrun.initial calls).droppedSamples =
      UInt32.ofNat
        (stale calls positions +
          ((deliveredPairs positions).map
            (fun pair => distance (byteAt pair.2 + 1) (byteAt pair.1))).sum) := by
  cases calls with
  | nil =>
      cases positions with
      | nil =>
          rfl
      | cons first rest =>
          exact absurd carries (by simp)
  | cons call rest =>
      have begun :
          underrunTests Underrun.initial (call :: rest) =
            underrunTests
              { Underrun.initial with bcnt := call.1.bytes 0, uninit := false }
              (call :: rest) := by
        unfold underrunTests
        rw [List.foldl_cons, List.foldl_cons, underrunTest_uninit _ rfl]
      have expects : call.1.bytes 0 = call.1.bytes 0 - 1 + 1 :=
        (UInt8.sub_add_cancel (call.1.bytes 0) 1).symm
      have counted :=
        underrunTests_eq { Underrun.initial with bcnt := call.1.bytes 0, uninit := false }
          rfl (call.1.bytes 0 - 1) expects (call :: rest)
      rw [begun, counted, carries]
      cases positions with
      | nil =>
          rfl
      | cons first others =>
          rw [losses_positions]
          exact UInt32.zero_add _

theorem stale_lt (calls : List (Buffer × Bool)) (positions : List Nat) :
    stale calls positions < 256 := by
  unfold stale
  split
  · rename_i call rest first others
    have expected := (call.1.bytes 0).toNat_lt
    have byte := (byteAt first).toNat_lt
    rw [distance_eq]
    split <;> omega
  · decide

/-- The count is the lower bound that is printed exactly where the other runs cover the
excess of those that pass zero. -/
theorem countsAtLeast_iff
    {positions : List Nat}
    {calls : List (Buffer × Bool)}
    (sorted : positions.Pairwise (· < ·))
    (carries : calls.flatMap (fun call => call.1.delivered) = positions.map byteAt) :
    CountsAtLeast positions (underrunTests Underrun.initial calls) ↔
      ExcessCovered calls positions := by
  have counted := droppedSamples_eq carries
  have sum := sum_distance sorted
  have isZero := sum_distance_eq_zero sorted
  have small := stale_lt calls positions
  unfold CountsAtLeast ExcessCovered
  rw [← UInt32.toNat_inj, counted, UInt32.toNat_ofNat', UInt32.toNat_zero]
  generalize ((deliveredPairs positions).map
    (fun pair => distance (byteAt pair.2 + 1) (byteAt pair.1))).sum = runs at sum isZero ⊢
  generalize ((deliveredPairs positions).map excess).sum = surplus at sum ⊢
  generalize stale calls positions = old at small ⊢
  dsimp only
  have whole : (dropped positions : Int) + (old + surplus) = (old + runs : Nat) := by
    push_cast
    omega
  have bound :
      (old + runs) % 2 ^ 32 ≤ dropped positions ↔
        (old : Int) + surplus ≤ 2 ^ 32 * ((dropped positions + (old + surplus)) / 2 ^ 32) := by
    rw [whole]
    omega
  refine and_congr bound ?_
  rw [whole]
  split
  · rename_i allWhole
    have none := isZero.mpr allWhole
    rw [none]
    constructor
    · intro same
      have isZero := same.mpr allWhole
      omega
    · intro fresh
      rw [fresh]
      exact iff_of_true rfl allWhole
  · rename_i notWhole
    constructor
    · intro same divides
      exact notWhole (same.mp (by omega))
    · intro notDivides
      refine iff_of_false (fun isMultiple => notDivides ?_) notWhole
      omega

/-- A buffer that delivers the bytes 254 and 0. -/
def buffer254 : Buffer where
  bytes i := if i = 0 then 254 else 0
  len := 2

/-- A run that passes zero behind a whole round is covered. -/
theorem countsAtLeast_round :
    CountsAtLeast [254, 512] (underrunTests Underrun.initial [(buffer254, false)]) := by
  refine (countsAtLeast_iff (by decide) (by decide)).mpr ?_
  unfold ExcessCovered
  decide

/-- One dropped byte in front of a zero counts as 255 lost ones. -/
theorem counts_too_many :
    ¬ ∀ (positions : List Nat) (calls : List (Buffer × Bool)),
      positions.Pairwise (· < ·) →
        calls.flatMap (fun call => call.1.delivered) = positions.map byteAt →
          CountsAtLeast positions (underrunTests Underrun.initial calls) := by
  intro always
  have counts := (always [254, 256] [(buffer254, false)] (by decide) (by decide)).1
  exact absurd counts (by decide)

end LibRtlSdr.RtlTest
