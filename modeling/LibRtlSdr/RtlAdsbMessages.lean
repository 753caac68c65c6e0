import LibRtlSdr.RtlAdsbManchester
import LibRtlSdr.Stretches
import Mathlib.Data.List.GetD
import Mathlib.Tactic.IntervalCases

namespace LibRtlSdr.RtlAdsb

/-!
# How `messages` reads the buffer

`messages` tells bits from marks by their value alone.  It begins a frame at the
first cell of a stretch of bits, and again in the same stretch behind a byte of
zeros or a frame; what it does with the cells of a stretch does not depend on
any other cell.
-/

/-! ## The bytes of a frame -/

/-- A byte of some bits, where missing bits are zero. -/
def byteOf (bits : List Bool) (index : Nat) : Byte :=
  BitVec.ofBoolListBE
    [bits.getD (8 * index) false, bits.getD (8 * index + 1) false,
      bits.getD (8 * index + 2) false, bits.getD (8 * index + 3) false,
      bits.getD (8 * index + 4) false, bits.getD (8 * index + 5) false,
      bits.getD (8 * index + 6) false, bits.getD (8 * index + 7) false]

/-- The 14 bytes of `adsb_frame` for some bits. -/
def bytesOf (bits : List Bool) : List Byte :=
  (List.range 14).map (byteOf bits)

theorem getMsbD_byteOf
    (bits : List Bool)
    (index : Nat)
    {place : Nat}
    (inByte : place < 8) :
    (byteOf bits index).getMsbD place = bits.getD (8 * index + place) false := by
  have listed :
      (byteOf bits index).getMsbD place =
        [bits.getD (8 * index) false, bits.getD (8 * index + 1) false,
          bits.getD (8 * index + 2) false, bits.getD (8 * index + 3) false,
          bits.getD (8 * index + 4) false, bits.getD (8 * index + 5) false,
          bits.getD (8 * index + 6) false,
          bits.getD (8 * index + 7) false].getD place false :=
    BitVec.getMsbD_ofBoolListBE
  rw [listed]
  interval_cases place <;> rfl

/-- Bytes of the same bits are the same. -/
theorem byteOf_congr
    {bits others : List Bool}
    {index : Nat}
    (same :
      ∀ place < 8,
        bits.getD (8 * index + place) false =
          others.getD (8 * index + place) false) :
    byteOf bits index = byteOf others index := by
  apply BitVec.eq_of_getMsbD_eq
  intro place inByte
  rw [getMsbD_byteOf bits index inByte, getMsbD_byteOf others index inByte]
  exact same place inByte

/-- The bit in a byte that `messages` sets. -/
theorem getMsbD_shifted
    {place : Nat}
    (data : Nat)
    (inByte : place < 8) :
    (((1 <<< (7 - data % 8) : Nat) : Byte)).getMsbD place =
      decide (place = data % 8) := by
  have inside := Nat.mod_lt data (by decide : 0 < 8)
  generalize data % 8 = bit at inside
  interval_cases bit <;> interval_cases place <;> rfl

/-- A bit behind the others is that of the place after them. -/
theorem getD_concat
    (bits : List Bool)
    (bit : Bool)
    (place : Nat) :
    (bits ++ [bit]).getD place false =
      if place = bits.length then bit else bits.getD place false := by
  simp only [List.getD_eq_getElem?_getD, List.getElem?_append]
  by_cases before : place < bits.length
  · rw [if_pos before, if_neg (Nat.ne_of_lt before)]
  · rw [if_neg before]
    by_cases last : place = bits.length
    · rw [if_pos last, last, Nat.sub_self]
      rfl
    · have past : bits.length ≤ place := Nat.not_lt.mp before
      rw [if_neg last, List.getElem?_eq_none past,
        List.getElem?_eq_none (by rw [List.length_singleton]; omega)]

theorem length_bytesOf (bits : List Bool) : (bytesOf bits).length = 14 := by
  rw [bytesOf, List.length_map, List.length_range]

theorem getD_bytesOf
    (bits : List Bool)
    {index : Nat}
    (inFrame : index < 14) :
    (bytesOf bits).getD index 0 = byteOf bits index := by
  rw [List.getD_eq_getElem _ _ (by rw [length_bytesOf]; exact inFrame)]
  simp only [bytesOf, List.getElem_map, List.getElem_range]

/-- The byte of the next bit, if that is set. -/
theorem byteOf_concat_true
    (bits : List Bool) :
    byteOf (bits ++ [true]) (bits.length / 8) =
      byteOf bits (bits.length / 8) |||
        ((1 <<< (7 - bits.length % 8) : Nat) : Byte) := by
  apply BitVec.eq_of_getMsbD_eq
  intro place inByte
  have split := Nat.div_add_mod bits.length 8
  rw [BitVec.getMsbD_or, getMsbD_shifted _ inByte,
    getMsbD_byteOf _ _ inByte, getMsbD_byteOf _ _ inByte, getD_concat]
  by_cases here : place = bits.length % 8
  · rw [if_pos (by omega), decide_eq_true here, Bool.or_true]
  · rw [if_neg (by omega), decide_eq_false here, Bool.or_false]

/-- One bit more is set in its byte, or left at zero. -/
theorem bytesOf_concat
    {bits : List Bool}
    (inFrame : bits.length < 112)
    (bit : Bool) :
    bytesOf (bits ++ [bit]) =
      if bit then
        (bytesOf bits).set (bits.length / 8)
          ((bytesOf bits).getD (bits.length / 8) 0 |||
            ((1 <<< (7 - bits.length % 8) : Nat) : Byte))
      else
        bytesOf bits := by
  cases bit with
  | false =>
      rw [if_neg (by decide)]
      apply List.map_congr_left
      intro index _
      apply byteOf_congr
      intro place _
      rw [getD_concat]
      split
      · rename_i last
        rw [List.getD_eq_default _ _ (Nat.le_of_eq last.symm)]
      · rfl
  | true =>
      rw [if_pos rfl, getD_bytesOf bits (by omega), ← byteOf_concat_true]
      apply List.ext_getElem
      · rw [List.length_set, length_bytesOf, length_bytesOf]
      · intro index inside _
        rw [length_bytesOf] at inside
        rw [List.getElem_set]
        simp only [bytesOf, List.getElem_map, List.getElem_range]
        by_cases here : bits.length / 8 = index
        · rw [if_pos here, here]
        · rw [if_neg here]
          apply byteOf_congr
          intro place inByte
          rw [getD_concat, if_neg (by omega)]

/-- The bytes do not depend on what is behind the last of them. -/
theorem byteOf_append
    {bits : List Bool}
    {index : Nat}
    (inBits : 8 * index + 8 ≤ bits.length)
    (others : List Bool) :
    byteOf (bits ++ others) index = byteOf bits index := by
  apply byteOf_congr
  intro place inByte
  simp only [List.getD_eq_getElem?_getD]
  rw [List.getElem?_append_left (by omega)]

/-- The first bit of a byte is the one that `messages` asks for. -/
theorem byteOf_and_high
    (bits : List Bool) :
    byteOf bits 0 &&& 0x80 ≠ 0 ↔ bits.getD 0 false = true := by
  have first := getMsbD_byteOf bits 0 (by decide : 0 < 8)
  rw [Nat.mul_zero, Nat.add_zero] at first
  rw [← first]
  generalize byteOf bits 0 = byte
  revert byte
  decide +kernel

/-! ## The bits of a stretch -/

/-- The bits in some cells. -/
def bitsIn (buf : Buffer) (first count : Nat) : List Bool :=
  (List.range count).map fun bit => decide (buf (first + bit) ≠ 0)

theorem length_bitsIn
    (buf : Buffer)
    (first count : Nat) :
    (bitsIn buf first count).length = count := by
  rw [bitsIn, List.length_map, List.length_range]

theorem bitsIn_succ
    (buf : Buffer)
    (first count : Nat) :
    bitsIn buf first (count + 1) =
      bitsIn buf first count ++ [decide (buf (first + count) ≠ 0)] := by
  rw [bitsIn, List.range_succ, List.map_append]
  rfl

theorem bitsIn_add
    (buf : Buffer)
    (first before count : Nat) :
    bitsIn buf first (before + count) =
      bitsIn buf first before ++ bitsIn buf (first + before) count := by
  simp only [bitsIn, List.range_add, List.map_append, List.map_map,
    Function.comp_def, Nat.add_assoc]

theorem take_bitsIn
    (buf : Buffer)
    (first : Nat)
    {count all : Nat}
    (within : count ≤ all) :
    (bitsIn buf first all).take count = bitsIn buf first count := by
  rcases Nat.exists_eq_add_of_le within with ⟨rest, rfl⟩
  rw [bitsIn_add]
  exact List.take_left' (length_bitsIn buf first count)

theorem take_bitsIn_min
    (buf : Buffer)
    (first count all : Nat) :
    (bitsIn buf first all).take count = bitsIn buf first (min count all) := by
  rw [← take_bitsIn buf first (Nat.min_le_right count all),
    List.take_eq_take_iff, length_bitsIn]
  omega

theorem drop_bitsIn
    (buf : Buffer)
    (first : Nat)
    {offset all : Nat}
    (within : offset ≤ all) :
    (bitsIn buf first all).drop offset =
      bitsIn buf (first + offset) (all - offset) := by
  rcases Nat.exists_eq_add_of_le within with ⟨rest, rfl⟩
  rw [bitsIn_add, Nat.add_sub_cancel_left]
  exact List.drop_left' (length_bitsIn buf first offset)

/-- The cells from one on that hold bits, up to a mark or the end. -/
abbrev Stretch (buf : Buffer) : (len first count : Nat) → Prop :=
  Stretches.Stretch fun cell => buf cell ≤ 1

/-- A stretch that cannot be made longer at its front. -/
abbrev MaximalStretch (buf : Buffer) : (len first count : Nat) → Prop :=
  Stretches.MaximalStretch fun cell => buf cell ≤ 1

/-- The length of the frame that begins with some bits. -/
def frameLenOf (bits : List Bool) : Nat :=
  if bits.getD 0 false then longFrame else shortFrame

/-- The first byte of some bits is there, and is not zero. -/
def HasType (bits : List Bool) : Prop :=
  8 ≤ bits.length ∧ byteOf bits 0 ≠ 0

instance (bits : List Bool) : Decidable (HasType bits) :=
  inferInstanceAs (Decidable (_ ∧ _))

/-- The bits that are collected for a frame. -/
def collectedBits (bits : List Bool) : List Bool :=
  bits.take (frameLenOf bits)

/-- The number of cells that are passed when a frame has been collected. -/
def advance (bits : List Bool) : Nat :=
  if bits.length < 8 then
    bits.length + 1
  else if byteOf bits 0 = 0 then
    8
  else
    (collectedBits bits).length + 1

/-- A frame is displayed, and be it for one bit too few. -/
def Displays (bits : List Bool) : Prop :=
  HasType bits ∧ frameLenOf bits ≤ bits.length + 1

instance (bits : List Bool) : Decidable (Displays bits) :=
  inferInstanceAs (Decidable (_ ∧ _))

/-! ## One frame -/

/-- What has been collected from some cells. -/
def collectedAt (buf : Buffer) (first count : Nat) : Collecting where
  i := first + count
  dataI := count
  frameLen :=
    if count < 8 then longFrame else frameLenOf (bitsIn buf first count)
  frame := bytesOf (bitsIn buf first count)

theorem begin_eq
    (buf : Buffer)
    (first : Nat) :
    Collecting.begin first = collectedAt buf first 0 := by
  have none : bytesOf [] = List.replicate 14 0 := by
    decide
  unfold Collecting.begin collectedAt
  rw [show bitsIn buf first 0 = [] from rfl, none]
  rfl

theorem frameLenOf_le (bits : List Bool) : frameLenOf bits ≤ longFrame := by
  unfold frameLenOf
  split <;> decide

theorem shortFrame_le_frameLenOf
    (bits : List Bool) :
    shortFrame ≤ frameLenOf bits := by
  unfold frameLenOf
  split <;> decide

/-- The length of a frame is that of its first bits. -/
theorem frameLenOf_append
    {bits : List Bool}
    (some : bits ≠ [])
    (others : List Bool) :
    frameLenOf (bits ++ others) = frameLenOf bits := by
  cases bits with
  | nil =>
      exact absurd rfl some
  | cons bit rest =>
      rfl

theorem frameLen_collectedAt_le
    (buf : Buffer)
    (first count : Nat) :
    (collectedAt buf first count).frameLen ≤ longFrame := by
  unfold collectedAt
  dsimp only
  split
  · exact Nat.le_refl _
  · exact frameLenOf_le _

/-- The first byte of some bits is there, and is zero. -/
def ZeroByte (buf : Buffer) (first : Nat) : Prop :=
  byteOf (bitsIn buf first 8) 0 = 0

/-- A bit is collected, and the first byte is looked at when it is there. -/
theorem collect_bit
    {buf : Buffer}
    {len first count : Nat}
    (inside : first + count < len)
    (isBit : buf (first + count) ≤ 1)
    (more : count < (collectedAt buf first count).frameLen)
    (left : Nat) :
    (count = 7 → ZeroByte buf first →
        collect buf len (left + 1) (collectedAt buf first count) =
          { collectedAt buf first count with
            frame := bytesOf (bitsIn buf first 8) }) ∧
      ((count = 7 → ¬ ZeroByte buf first) →
        collect buf len (left + 1) (collectedAt buf first count) =
          collect buf len left (collectedAt buf first (count + 1))) := by
  have inFrame : (bitsIn buf first count).length < 112 := by
    rw [length_bitsIn]
    exact Nat.lt_of_lt_of_le more (frameLen_collectedAt_le buf first count)
  have frame := bytesOf_concat inFrame (decide (buf (first + count) ≠ 0))
  rw [← bitsIn_succ, length_bitsIn] at frame
  simp only [decide_eq_true_eq] at frame
  unfold collectedAt at more ⊢
  dsimp only at more
  rw [collect, if_pos ⟨inside, isBit, more⟩]
  dsimp only
  rw [← frame, getD_bytesOf _ (by decide)]
  constructor
  · intro last zero
    subst last
    rw [if_pos ⟨rfl, zero⟩]
  · intro notZero
    have passes :
        ¬ (count = 7 ∧ byteOf (bitsIn buf first (count + 1)) 0 = 0) := by
      rintro ⟨last, zero⟩
      subst last
      exact notZero rfl zero
    rw [if_neg passes]
    congr 2
    rcases Nat.lt_trichotomy count 7 with early | last | late
    · rw [if_neg (by omega), if_pos (by omega), if_pos (by omega)]
    · subst last
      rw [if_pos (rfl : 7 = 7), if_neg (by decide : ¬ 7 + 1 < 8)]
      unfold frameLenOf
      exact if_congr (byteOf_and_high _) rfl rfl
    · have some : bitsIn buf first count ≠ [] := by
        apply List.ne_nil_of_length_pos
        rw [length_bitsIn]
        omega
      rw [if_neg (by omega), if_neg (by omega), if_neg (by omega), bitsIn_succ,
        frameLenOf_append some]

/-- The bits are collected one after the other. -/
theorem collect_bits
    {buf : Buffer}
    {len first count : Nat}
    (goesOn :
      ∀ round < count,
        first + round < len ∧
          buf (first + round) ≤ 1 ∧
          round < (collectedAt buf first round).frameLen ∧
          (round = 7 → ¬ ZeroByte buf first))
    (left : Nat) :
    collect buf len (count + left) (.begin first) =
      collect buf len left (collectedAt buf first count) := by
  induction count generalizing left with
  | zero =>
      rw [Nat.zero_add, begin_eq]
  | succ count inductionHypothesis =>
      have earlier :=
        inductionHypothesis
          (fun round before => goesOn round (Nat.lt_succ_of_lt before))
          (left + 1)
      rcases goesOn count (Nat.lt_succ_self _) with
        ⟨inside, isBit, more, notZero⟩
      rw [Nat.add_right_comm, Nat.add_assoc, earlier]
      exact (collect_bit inside isBit more left).2 notZero

/-- The loop ends at a mark, at the end of the buffer or with the last bit. -/
theorem collect_ends
    {buf : Buffer}
    {len : Nat}
    {collecting : Collecting}
    (ends :
      ¬ (collecting.i < len ∧ buf collecting.i ≤ 1 ∧
        collecting.dataI < collecting.frameLen))
    (left : Nat) :
    collect buf len left collecting = collecting := by
  cases left with
  | zero =>
      rfl
  | succ left =>
      rw [collect, if_neg ends]

/-- What is displayed for the bits of a stretch that begins at a cell. -/
def shownFor (bits : List Bool) (first : Nat) : Shown where
  frame := bytesOf (collectedBits bits)
  len := frameLenOf bits
  first := first
  bits := (collectedBits bits).length

section Stretches

variable {buf : Buffer} {len first count : Nat}

/-- The first bit of a stretch decides how long its frame is. -/
theorem frameLenOf_bitsIn
    {some : Nat}
    (positive : 0 < some)
    (within : some ≤ count) :
    frameLenOf (bitsIn buf first some) = frameLenOf (bitsIn buf first count) := by
  rcases Nat.exists_eq_add_of_le within with ⟨rest, rfl⟩
  rw [bitsIn_add, frameLenOf_append]
  apply List.ne_nil_of_length_pos
  rw [length_bitsIn]
  exact positive

/-- The first byte of a stretch is that of its first eight cells. -/
theorem byteOf_bitsIn
    (long : 8 ≤ count) :
    byteOf (bitsIn buf first count) 0 = byteOf (bitsIn buf first 8) 0 := by
  rcases Nat.exists_eq_add_of_le long with ⟨rest, rfl⟩
  rw [bitsIn_add, byteOf_append (by rw [length_bitsIn])]

/-- The stretch is shorter than a byte. -/
theorem Stretch.collect_short
    (stretch : Stretch buf len first count)
    (short : count < 8) :
    collect buf len longFrame (.begin first) = collectedAt buf first count := by
  have goesOn :
      ∀ round < count,
        first + round < len ∧
          buf (first + round) ≤ 1 ∧
          round < (collectedAt buf first round).frameLen ∧
          (round = 7 → ¬ ZeroByte buf first) := by
    intro round before
    have inside := stretch.inside
    refine ⟨by omega, stretch.members round before, ?_,
      fun last => absurd last (by omega)⟩
    unfold collectedAt
    dsimp only
    rw [if_pos (by omega)]
    unfold longFrame
    omega
  have enough : longFrame = count + (longFrame - count) := by
    unfold longFrame
    omega
  rw [enough, collect_bits goesOn]
  apply collect_ends
  rintro ⟨inside, isBit, _⟩
  exact stretch.ends inside isBit

/-- The first byte of the stretch is zero. -/
theorem Stretch.collect_zero
    (stretch : Stretch buf len first count)
    (long : 8 ≤ count)
    (zero : ZeroByte buf first) :
    collect buf len longFrame (.begin first) =
      { collectedAt buf first 7 with frame := bytesOf (bitsIn buf first 8) } := by
  have goesOn :
      ∀ round < 8,
        first + round < len ∧
          buf (first + round) ≤ 1 ∧
          round < (collectedAt buf first round).frameLen := by
    intro round before
    have inside := stretch.inside
    refine ⟨by omega, stretch.members round (by omega), ?_⟩
    unfold collectedAt
    dsimp only
    rw [if_pos before]
    unfold longFrame
    omega
  have before :=
    collect_bits
      (fun round before =>
        ⟨(goesOn round (by omega)).1, (goesOn round (by omega)).2.1,
          (goesOn round (by omega)).2.2,
          fun last => absurd last (Nat.ne_of_lt before)⟩)
      105
  rcases goesOn 7 (by decide) with ⟨inside, isBit, more⟩
  exact before.trans ((collect_bit inside isBit more 104).1 rfl zero)

/-- The stretch begins with a byte that is not zero. -/
theorem Stretch.collect_frame
    (stretch : Stretch buf len first count)
    (long : 8 ≤ count)
    (notZero : ¬ ZeroByte buf first) :
    collect buf len longFrame (.begin first) =
      collectedAt buf first
        (min (frameLenOf (bitsIn buf first count)) count) := by
  have isLong := frameLenOf_le (bitsIn buf first count)
  have isShort : 8 ≤ frameLenOf (bitsIn buf first count) :=
    Nat.le_trans (by decide) (shortFrame_le_frameLenOf _)
  have frameLen :
      ∀ round ≤ count,
        (collectedAt buf first round).frameLen =
          if round < 8 then
            longFrame
          else
            frameLenOf (bitsIn buf first count) := by
    intro round within
    unfold collectedAt
    dsimp only
    split
    · rfl
    · rw [frameLenOf_bitsIn (by omega) within]
  have goesOn :
      ∀ round < min (frameLenOf (bitsIn buf first count)) count,
        first + round < len ∧
          buf (first + round) ≤ 1 ∧
          round < (collectedAt buf first round).frameLen ∧
          (round = 7 → ¬ ZeroByte buf first) := by
    intro round before
    have inside := stretch.inside
    refine ⟨by omega, stretch.members round (by omega), ?_, fun _ => notZero⟩
    rw [frameLen round (by omega)]
    split <;> omega
  rw [← Nat.add_sub_of_le (Nat.le_trans (Nat.min_le_left _ count) isLong),
    collect_bits goesOn]
  apply collect_ends
  rintro ⟨inside, isBit, more⟩
  rw [frameLen _ (Nat.min_le_right _ _), if_neg (by omega)] at more
  have all : min (frameLenOf (bitsIn buf first count)) count = count := by
    dsimp only [collectedAt] at more
    omega
  rw [all] at inside isBit
  exact stretch.ends inside isBit

/-- What is collected from a stretch depends on its bits alone. -/
structure Collected
    (bits : List Bool)
    (first : Nat)
    (collected : Collecting) : Prop where
  next : collected.i + 1 = first + advance bits
  fails : ¬ Displays bits → collected.dataI < collected.frameLen - 1
  shows :
    Displays bits →
      collected.frameLen - 1 ≤ collected.dataI ∧
        ⟨collected.frame, collected.frameLen, first, collected.dataI⟩ =
          shownFor bits first

theorem Stretch.collected
    (stretch : Stretch buf len first count) :
    Collected (bitsIn buf first count) first
      (collect buf len longFrame (.begin first)) := by
  have length := length_bitsIn buf first count
  by_cases long : count < 8
  · have noType : ¬ Displays (bitsIn buf first count) := by
      rintro ⟨⟨enough, _⟩, _⟩
      omega
    rw [stretch.collect_short long]
    refine ⟨?_, fun _ => ?_, fun shows => absurd shows noType⟩
    · unfold advance
      rw [length, if_pos long]
      rfl
    · unfold collectedAt
      dsimp only
      rw [if_pos long]
      unfold longFrame
      omega
  have enough : 8 ≤ count := Nat.not_lt.mp long
  have sameByte :
      byteOf (bitsIn buf first count) 0 = byteOf (bitsIn buf first 8) 0 :=
    byteOf_bitsIn enough
  by_cases zero : ZeroByte buf first
  · have noType : ¬ Displays (bitsIn buf first count) := by
      rintro ⟨⟨_, notZero⟩, _⟩
      exact notZero (sameByte.trans zero)
    rw [stretch.collect_zero enough zero]
    refine ⟨?_, fun _ => ?_, fun shows => absurd shows noType⟩
    · unfold advance
      rw [length, if_neg long, if_pos (sameByte.trans zero)]
      rfl
    · unfold collectedAt
      dsimp only
      rw [if_pos (by decide : 7 < 8)]
      decide
  · have hasType : HasType (bitsIn buf first count) :=
      ⟨by omega, fun same => zero (sameByte.symm.trans same)⟩
    have many : (collectedBits (bitsIn buf first count)).length =
        min (frameLenOf (bitsIn buf first count)) count := by
      rw [collectedBits, List.length_take, length]
    have isShort : 8 ≤ frameLenOf (bitsIn buf first count) :=
      Nat.le_trans (by decide) (shortFrame_le_frameLenOf _)
    have frameLen :
        (if min (frameLenOf (bitsIn buf first count)) count < 8 then
            longFrame
          else
            frameLenOf (bitsIn buf first
              (min (frameLenOf (bitsIn buf first count)) count))) =
          frameLenOf (bitsIn buf first count) := by
      rw [if_neg (by omega),
        frameLenOf_bitsIn (by omega) (Nat.min_le_right _ count)]
    rw [stretch.collect_frame enough zero]
    unfold collectedAt
    rw [frameLen]
    refine ⟨?_, fun fails => ?_, fun shows => ⟨?_, ?_⟩⟩
    · unfold advance
      rw [length, if_neg long, if_neg hasType.2, many]
      rfl
    · have tooFew :
          ¬ frameLenOf (bitsIn buf first count) ≤ count + 1 :=
        fun few => fails ⟨hasType, by rw [length]; exact few⟩
      dsimp only
      omega
    · have few := shows.2
      rw [length] at few
      dsimp only
      omega
    · unfold shownFor
      rw [many, collectedBits, take_bitsIn_min]

end Stretches

/-! ## From cell to cell -/

/-- No frame goes back. -/
theorem le_collect
    (buf : Buffer)
    (len left : Nat)
    (collecting : Collecting) :
    collecting.i ≤ (collect buf len left collecting).i := by
  induction left generalizing collecting with
  | zero =>
      exact Nat.le_refl _
  | succ left inductionHypothesis =>
      unfold collect
      split
      · dsimp only
        split
        · split
          · exact Nat.le_refl _
          · refine Nat.le_trans ?_ (inductionHypothesis _)
            exact Nat.le_succ _
        · split
          · exact Nat.le_refl _
          · refine Nat.le_trans ?_ (inductionHypothesis _)
            exact Nat.le_succ _
      · exact Nat.le_refl _

/-- Rounds that are not needed make no difference. -/
theorem messagesLoop_enough
    {buf : Buffer}
    {len left leftToo i : Nat}
    (enough : len ≤ i + left)
    (enoughToo : len ≤ i + leftToo) :
    messagesLoop buf len left i = messagesLoop buf len leftToo i := by
  induction left generalizing leftToo i with
  | zero =>
      cases leftToo with
      | zero =>
          rfl
      | succ leftToo =>
          rw [messagesLoop, messagesLoop, if_neg (by omega)]
  | succ left inductionHypothesis =>
      cases leftToo with
      | zero =>
          rw [messagesLoop, messagesLoop, if_neg (by omega)]
      | succ leftToo =>
          have later := le_collect buf len longFrame (.begin i)
          have goesOn :
              messagesLoop buf len left
                  ((collect buf len longFrame (.begin i)).i + 1) =
                messagesLoop buf len leftToo
                  ((collect buf len longFrame (.begin i)).i + 1) := by
            dsimp only [Collecting.begin] at later ⊢
            exact inductionHypothesis (by omega) (by omega)
          have skips :
              messagesLoop buf len left (i + 1) =
                messagesLoop buf len leftToo (i + 1) :=
            inductionHypothesis (by omega) (by omega)
          rw [messagesLoop, messagesLoop, skips]
          dsimp only
          rw [goesOn]

/-- What `messages` displays from a cell on. -/
def messagesFrom (buf : Buffer) (len i : Nat) : List Shown :=
  messagesLoop buf len (len - i) i

theorem messages_eq
    (buf : Buffer)
    (len : Nat) :
    messages buf len = messagesFrom buf len 0 :=
  rfl

section From

variable {buf : Buffer} {len i count : Nat}

theorem messagesFrom_end
    (outside : len ≤ i) :
    messagesFrom buf len i = [] := by
  rw [messagesFrom, Nat.sub_eq_zero_of_le outside]
  rfl

/-- A cell that is not a bit is passed. -/
theorem messagesFrom_mark
    (isMark : i < len → 1 < buf i) :
    messagesFrom buf len i = messagesFrom buf len (i + 1) := by
  by_cases inside : i < len
  · have rounds : len - i = (len - (i + 1)) + 1 := by
      omega
    rw [messagesFrom, rounds, messagesLoop, if_pos inside,
      if_pos (isMark inside)]
    rfl
  · rw [messagesFrom_end (by omega), messagesFrom_end (by omega)]

/-- The bits of a stretch are displayed or not, and passed. -/
theorem Stretch.messagesFrom
    (stretch : Stretch buf len i count)
    (some : 0 < count) :
    messagesFrom buf len i =
      (if Displays (bitsIn buf i count) then
          [shownFor (bitsIn buf i count) i]
        else
          []) ++
        messagesFrom buf len (i + advance (bitsIn buf i count)) := by
  have inside : i < len := by
    have within := stretch.inside
    omega
  have isBit : buf i ≤ 1 :=
    stretch.members 0 some
  have collected := stretch.collected
  have later := le_collect buf len longFrame (.begin i)
  dsimp only [Collecting.begin] at later
  have next := collected.next
  have rounds : len - i = (len - (i + 1)) + 1 := by
    omega
  rw [RtlAdsb.messagesFrom, rounds, messagesLoop, if_pos inside,
    if_neg (Nat.not_lt.mpr isBit)]
  dsimp only
  rw [next]
  have enough :
      messagesLoop buf len (len - (i + 1))
          (i + advance (bitsIn buf i count)) =
        RtlAdsb.messagesFrom buf len (i + advance (bitsIn buf i count)) := by
    dsimp only [Collecting.begin] at next
    exact messagesLoop_enough (by omega) (by omega)
  rw [enough]
  by_cases shows : Displays (bitsIn buf i count)
  · rcases collected.shows shows with ⟨many, same⟩
    rw [if_pos shows, if_neg (Nat.not_lt.mpr many), same]
    rfl
  · rw [if_neg shows, if_pos (collected.fails shows)]
    rfl

end From

/-! ## Where frames begin -/

/-- The places in a stretch where `messages` begins a frame. -/
inductive Rest (bits : List Bool) : Nat → Prop where
  | whole (some : bits ≠ []) : Rest bits 0
  | behind
      {offset : Nat}
      (rest : Rest bits offset)
      (more : offset + advance (bits.drop offset) < bits.length) :
      Rest bits (offset + advance (bits.drop offset))

end LibRtlSdr.RtlAdsb
