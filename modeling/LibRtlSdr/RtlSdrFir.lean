import Mathlib.Algebra.Order.Ring.Int
import Mathlib.Tactic.ByContra

namespace LibRtlSdr.RtlSdrFir

/-!
# The coefficients of the resampling filter

`rtlsdr_set_fir` checks the 16 coefficients of the device, packs them into 20 bytes and
writes these to the demodulator.  What `libusb_control_transfer` returns may depend on
every transfer made so far.
-/

/-! ## Source -/

/-- A transfer with the setup fields that the register functions choose. -/
inductive Transfer where
  | controlIn (value index : UInt16) (length : Nat)
  | controlOut (value index : UInt16) (data : List UInt8)
  deriving DecidableEq

/-- The transfers made so far, each with the result of `libusb_control_transfer`. -/
abbrev Made :=
  List (Transfer × Int32)

section Library

variable (answer : Made → Transfer → Int32)

/-- `libusb_control_transfer`. -/
def controlTransfer (made : Made) (transfer : Transfer) : Int32 × Made :=
  (answer made transfer, made ++ [(transfer, answer made transfer)])

/-- `rtlsdr_demod_read_reg`, without the value that no caller here uses. -/
def demodReadReg (made : Made) (page : UInt8) (addr : UInt16) (len : Nat) : Made :=
  let index := page.toUInt16
  let addr := addr <<< 8 ||| 0x20
  (controlTransfer answer made (.controlIn addr index len)).2

/-- `rtlsdr_demod_write_reg`. -/
def demodWriteReg
    (made : Made)
    (page : UInt8)
    (addr val : UInt16)
    (len : Nat) :
    Int32 × Made :=
  let index := 0x10 ||| page.toUInt16
  let addr := addr <<< 8 ||| 0x20
  let first := if len = 1 then (val &&& 0xff).toUInt8 else (val >>> 8).toUInt8
  let data := [first, (val &&& 0xff).toUInt8]
  let (r, made) := controlTransfer answer made (.controlOut addr index (data.take len))
  let made := demodReadReg answer made 0x0a 0x01 1
  (if r = Int32.ofNat len then 0 else -1, made)

/-- The bytes of `fir` that are stored before a coefficient is out of range. -/
abbrev Bytes :=
  Nat → UInt8

/-- Store a value in a byte, without its higher bits. -/
def store (fir : Bytes) (place : Nat) (value : Int32) : Bytes :=
  fun other => if other = place then value.toUInt32.toUInt8 else fir other

variable (coefficient : Nat → Int32)

/-- A turn of the loop for "int8_t[8]". -/
def packByte (fir : Bytes) (i : Nat) : Option Bytes :=
  let val := coefficient i
  if val < -128 ∨ val > 127 then
    none
  else
    some (store fir i val)

/-- A turn of the loop for "int12_t[8]". -/
def packGroup (fir : Bytes) (i : Nat) : Option Bytes :=
  let val0 := coefficient (8 + i)
  let val1 := coefficient (8 + i + 1)
  if val0 < -2048 ∨ val0 > 2047 ∨ val1 < -2048 ∨ val1 > 2047 then
    none
  else
    let fir := store fir (8 + i * 3 / 2) (val0 >>> 4)
    let fir := store fir (8 + i * 3 / 2 + 1) (val0 <<< 4 ||| val1 >>> 8 &&& 0x0f)
    some (store fir (8 + i * 3 / 2 + 2) val1)

/-- Both loops, over what `fir` holds before; none where one returns. -/
def pack (fir : Bytes) : Option Bytes := do
  let fir ← (List.range 8).foldlM (packByte coefficient) fir
  (List.range' 0 4 2).foldlM (packGroup coefficient) fir

/-- The loop that writes the bytes at the given places. -/
def writeBytes (fir : Bytes) : List Nat → Made → Int32 × Made
  | [], made => (0, made)
  | i :: rest, made =>
      let (failed, made) :=
        demodWriteReg answer made 1 (0x1c + UInt16.ofNat i) (fir i).toUInt16 1
      if failed ≠ 0 then (-1, made) else writeBytes fir rest made

/-- `rtlsdr_set_fir`, with what the array `fir` holds at its start. -/
def setFir (fir : Bytes) (made : Made) : Int32 × Made :=
  match pack coefficient fir with
  | none => (-1, made)
  | some fir => writeBytes answer fir (List.range 20) made

end Library

/-! ## Format -/

/-- "First 8 coefficients are 8 bit signed integers, the next 8 coefficients are 12 bit
signed integers." -/
def InRange (coefficient : Nat → Int32) : Prop :=
  (∀ i < 8,
    -128 ≤ (coefficient i).toInt ∧ (coefficient i).toInt ≤ 127) ∧
  ∀ i < 8,
    -2048 ≤ (coefficient (8 + i)).toInt ∧ (coefficient (8 + i)).toInt ≤ 2047

/-- `fir_default`, which `rtlsdr_open` copies into the device. -/
def firDefault (i : Nat) : Int32 :=
  [-54, -36, -41, -40, -32, -14, 14, 53,
    101, 156, 215, 273, 327, 372, 404, 421].getD i 0

theorem firDefault_inRange : InRange firDefault :=
  ⟨by decide, by decide⟩

/-- Bits in two's complement. -/
def signed (width bits : Nat) : Int :=
  (BitVec.ofNat width bits).toInt

/-- A coefficient as the packed bytes give it: eight bytes, and four groups of three bytes
with two coefficients each. -/
def decode (fir : Bytes) (i : Nat) : Int :=
  let group := 8 + (i - 8) / 2 * 3
  if i < 8 then
    signed 8 (fir i).toNat
  else if i % 2 = 0 then
    signed 12 ((fir group).toNat * 16 + (fir (group + 1)).toNat / 16)
  else
    signed 12 ((fir (group + 1)).toNat % 16 * 256 + (fir (group + 2)).toNat)

/-- The fields of a transfer that writes. -/
def Transfer.written : Transfer → Option (UInt16 × UInt16 × List UInt8)
  | .controlIn _ _ _ => none
  | .controlOut value index data => some (value, index, data)

/-- What the transfers write, in order. -/
def writes (made : Made) : List (UInt16 × UInt16 × List UInt8) :=
  made.filterMap (fun entry => entry.1.written)

/-- Every transfer that writes transferred its one byte. -/
def Succeeded (made : Made) : Prop :=
  ∀ entry ∈ made, entry.1.written.isSome → entry.2 = 1

/-- The write of a byte to a register of page 1. -/
def byteWrite (i : Nat) (byte : UInt8) : UInt16 × UInt16 × List UInt8 :=
  ((0x1c + UInt16.ofNat i) <<< 8 ||| 0x20, 0x11, [byte])

/-! ## Writes -/

section Writes

variable (answer : Made → Transfer → Int32)

/-- The write of a byte and the read behind it. -/
theorem demodWriteReg_byte
    (made : Made)
    (i : Nat)
    (byte : UInt8) :
    ∃ r other : Int32,
      demodWriteReg answer made 1 (0x1c + UInt16.ofNat i) byte.toUInt16 1 =
        (if r = 1 then 0 else -1,
          made ++
            [(.controlOut (byteWrite i byte).1 0x11 [byte], r),
              (.controlIn 0x0120 0x0a 1, other)]) := by
  have low : (byte.toUInt16 &&& 0xff).toUInt8 = byte := by
    apply UInt8.toNat_inj.mp
    rw [UInt16.toNat_toUInt8, UInt16.toNat_and, UInt8.toNat_toUInt16]
    have small := byte.toNat_lt
    have mask : (0xff : UInt16).toNat = 2 ^ 8 - 1 := rfl
    rw [mask, Nat.and_two_pow_sub_one_eq_mod]
    omega
  let write := Transfer.controlOut (byteWrite i byte).1 0x11 [byte]
  let r := answer made write
  refine ⟨r, answer (made ++ [(write, r)]) (.controlIn 0x0120 0x0a 1), ?_⟩
  unfold demodWriteReg demodReadReg controlTransfer
  simp only [reduceIte, low, List.take_succ_cons, List.take_zero, List.append_assoc,
    List.singleton_append]
  rfl

/-- The loop writes the bytes in order, as long as no write fails. -/
theorem writeBytes_writes
    (fir : Bytes)
    (places : List Nat)
    (made : Made) :
    ∃ new,
      (writeBytes answer fir places made).2 = made ++ new ∧
        (Succeeded new →
          (writeBytes answer fir places made).1 = 0 ∧
            writes new = places.map (fun i => byteWrite i (fir i))) := by
  induction places generalizing made with
  | nil =>
      exact ⟨[], (List.append_nil made).symm, fun _ => ⟨rfl, rfl⟩⟩
  | cons i rest inductionHypothesis =>
      obtain ⟨r, other, wrote⟩ := demodWriteReg_byte answer made i (fir i)
      rw [writeBytes, wrote]
      dsimp only
      by_cases complete : r = 1
      · rw [if_pos complete, if_neg (not_not_intro rfl)]
        obtain ⟨new, transfers, onSuccess⟩ := inductionHypothesis _
        refine ⟨_ ++ new, transfers.trans (List.append_assoc _ _ _), ?_⟩
        intro succeeded
        obtain ⟨result, rest⟩ :=
          onSuccess (fun entry member => succeeded entry (List.mem_append_right _ member))
        refine ⟨result, ?_⟩
        rw [List.map_cons, ← rest]
        rfl
      · rw [if_neg complete, if_pos (by decide)]
        refine ⟨_, rfl, ?_⟩
        intro succeeded
        exact absurd (succeeded _ List.mem_cons_self rfl) complete

end Writes

/-! ## Bytes -/

/-- The lowest byte of a value. -/
theorem toNat_lowByte (value : Int32) :
    (value.toUInt32.toUInt8.toNat : Int) = value.toInt % 256 := by
  have whole :
      value.toInt =
        if 2 * value.toUInt32.toNat < 2 ^ 32 then
          (value.toUInt32.toNat : Int)
        else
          value.toUInt32.toNat - 2 ^ 32 := by
    rw [← Int32.toInt_toBitVec, BitVec.toInt_eq_toNat_cond]
    rfl
  rw [UInt32.toNat_toUInt8]
  split at whole <;> omega

/-- A shift to the right keeps the sign. -/
theorem toInt_shiftRight
    (value amount : Int32)
    {places : Nat}
    (isAmount : amount.toBitVec.smod 32 = BitVec.ofNat 32 places)
    (small : places < 2 ^ 32) :
    (value >>> amount).toInt = value.toInt / 2 ^ places := by
  rw [← Int32.toInt_toBitVec, Int32.toBitVec_shiftRight, isAmount,
    BitVec.sshiftRight_eq', BitVec.toInt_sshiftRight, Int.shiftRight_eq_div_pow,
    BitVec.toNat_ofNat, Nat.mod_eq_of_lt small, Int32.toInt_toBitVec]
  norm_cast

/-- The lowest byte of a shift to the left by four. -/
theorem toNat_lowByte_shiftLeft (value : Int32) :
    (value <<< 4).toUInt32.toUInt8.toNat =
      (value.toUInt32.toUInt8.toNat % 16) <<< 4 := by
  have amount : (Int32.toBitVec 4).smod 32 = 4#32 := by decide
  have shifted :
      (value <<< 4).toUInt32.toNat = value.toUInt32.toNat <<< 4 % 2 ^ 32 := by
    rw [← UInt32.toNat_toBitVec, ← UInt32.toNat_toBitVec, Int32.toBitVec_toUInt32,
      Int32.toBitVec_toUInt32, Int32.toBitVec_shiftLeft, amount,
      BitVec.shiftLeft_eq', BitVec.toNat_shiftLeft]
    rfl
  rw [UInt32.toNat_toUInt8, UInt32.toNat_toUInt8, shifted, Nat.shiftLeft_eq,
    Nat.shiftLeft_eq]
  omega

/-- The middle byte of a group has the lowest bits of the first coefficient and the highest
of the second. -/
theorem toNat_middleByte (val0 val1 : Int32) :
    ((val0 <<< 4 ||| val1 >>> 8 &&& 0x0f).toUInt32.toUInt8.toNat : Int) =
      val0.toInt % 16 * 16 + val1.toInt / 256 % 16 := by
  have parts :
      (val0 <<< 4 ||| val1 >>> 8 &&& 0x0f).toUInt32.toUInt8.toNat =
        (val0 <<< 4).toUInt32.toUInt8.toNat |||
          (val1 >>> 8).toUInt32.toUInt8.toNat % 2 ^ 4 := by
    rw [Int32.toUInt32_or, Int32.toUInt32_and, UInt32.toUInt8_or, UInt32.toUInt8_and,
      UInt8.toNat_or, UInt8.toNat_and, ← Nat.and_two_pow_sub_one_eq_mod]
    rfl
  have low : (val1 >>> 8).toUInt32.toUInt8.toNat % 2 ^ 4 < 2 ^ 4 := Nat.mod_lt _ (by decide)
  rw [parts, toNat_lowByte_shiftLeft, ← Nat.shiftLeft_add_eq_or_of_lt low, Nat.shiftLeft_eq]
  have first := toNat_lowByte val0
  have second := toNat_lowByte (val1 >>> 8)
  rw [@toInt_shiftRight val1 8 8 (by decide) (by decide)] at second
  push_cast
  omega

/-- A value that fits comes back from its lowest bits. -/
theorem signed_eq
    {width bits : Nat}
    {value : Int}
    (fits : -2 ^ width ≤ value ∧ value < 2 ^ width)
    (lowest : (bits : Int) % 2 ^ (width + 1) = value % 2 ^ (width + 1)) :
    signed (width + 1) bits = value := by
  have whole : (2 : Nat) ^ (width + 1) = 2 * 2 ^ width := Nat.pow_succ'
  have positive := Nat.two_pow_pos width
  have same : (bits : Int).bmod (2 ^ (width + 1)) = value.bmod (2 ^ (width + 1)) := by
    unfold Int.bmod
    push_cast
    rw [lowest]
  unfold signed
  rw [BitVec.toInt_ofNat', same]
  refine Int.bmod_eq_of_le ?_ ?_ <;> push_cast <;> omega

/-! ## Packing -/

/-- A loop that returns at the first turn that does not fit. -/
theorem foldlM_guarded
    {State : Type}
    {turn : State → Nat → Option State}
    {Fits : Nat → Prop}
    {Done : Nat → State → Prop}
    {start : State}
    (initially : Done 0 start)
    (passes :
      ∀ count state,
        Done count state → Fits count →
          ∃ after, turn state count = some after ∧ Done (count + 1) after)
    (refuses : ∀ count state, ¬ Fits count → turn state count = none)
    (count : Nat) :
    ((∀ i < count, Fits i) →
      ∃ after, (List.range count).foldlM turn start = some after ∧ Done count after) ∧
    ((¬ ∀ i < count, Fits i) → (List.range count).foldlM turn start = none) := by
  induction count with
  | zero =>
      exact ⟨fun _ => ⟨start, rfl, initially⟩, fun outside => absurd (by omega) outside⟩
  | succ count inductionHypothesis =>
      obtain ⟨onFits, onOutside⟩ := inductionHypothesis
      rw [List.range_succ, List.foldlM_append]
      by_cases before : ∀ i < count, Fits i
      · obtain ⟨middle, ran, done⟩ := onFits before
        rw [ran, Option.bind_eq_bind, Option.bind_some, List.foldlM_cons]
        constructor
        · intro fits
          obtain ⟨after, turned, doneAfter⟩ :=
            passes count middle done (fits count (Nat.lt_succ_self count))
          rw [turned]
          exact ⟨after, rfl, doneAfter⟩
        · intro outside
          have lastOutside : ¬ Fits count := by
            intro lastFits
            apply outside
            intro i isBefore
            rcases Nat.lt_succ_iff_lt_or_eq.mp isBefore with isBelow | rfl
            · exact before i isBelow
            · exact lastFits
          rw [refuses count middle lastOutside]
          rfl
      · constructor
        · intro fits
          exact absurd (fun i isBelow => fits i (Nat.lt_succ_of_lt isBelow)) before
        · intro _
          rw [onOutside before]
          rfl

section Packing

variable (coefficient : Nat → Int32)

/-- The coefficient of a byte fits its eight bits. -/
def ByteFits (i : Nat) : Prop :=
  -128 ≤ (coefficient i).toInt ∧ (coefficient i).toInt ≤ 127

/-- The two coefficients of a group fit their twelve bits. -/
def GroupFits (group : Nat) : Prop :=
  ∀ i, i / 2 = group →
    -2048 ≤ (coefficient (8 + i)).toInt ∧ (coefficient (8 + i)).toInt ≤ 2047

/-- The bytes of a group. -/
structure Grouped (fir : Bytes) (group : Nat) : Prop where
  first :
    fir (8 + 3 * group) = (coefficient (8 + 2 * group) >>> 4).toUInt32.toUInt8
  middle :
    fir (8 + 3 * group + 1) =
      (coefficient (8 + 2 * group) <<< 4 |||
        coefficient (8 + 2 * group + 1) >>> 8 &&& 0x0f).toUInt32.toUInt8
  last :
    fir (8 + 3 * group + 2) = (coefficient (8 + 2 * group + 1)).toUInt32.toUInt8

variable {coefficient}

theorem inRange_iff :
    InRange coefficient ↔
      (∀ i < 8, ByteFits coefficient i) ∧ ∀ group < 4, GroupFits coefficient group := by
  refine and_congr Iff.rfl ⟨?_, ?_⟩
  · intro fits group isGroup i ofGroup
    exact fits i (by omega)
  · intro fits i isPlace
    exact fits (i / 2) (by omega) i rfl

/-- A turn of the first loop. -/
theorem packByte_eq (fir : Bytes) (i : Nat) :
    (ByteFits coefficient i →
      packByte coefficient fir i = some (store fir i (coefficient i))) ∧
    (¬ ByteFits coefficient i → packByte coefficient fir i = none) := by
  have below : coefficient i < -128 ↔ (coefficient i).toInt < -128 :=
    Int32.lt_iff_toInt_lt
  have above : coefficient i > 127 ↔ 127 < (coefficient i).toInt :=
    Int32.lt_iff_toInt_lt
  unfold ByteFits packByte
  constructor
  · intro fits
    rw [if_neg]
    rw [below, above]
    omega
  · intro outside
    rw [if_pos]
    rw [below, above]
    omega

/-- A turn of the second loop. -/
theorem packGroup_eq (fir : Bytes) (group : Nat) :
    (GroupFits coefficient group →
      ∃ after,
        packGroup coefficient fir (2 * group) = some after ∧
          Grouped coefficient after group ∧
            ∀ place, place < 8 + 3 * group → after place = fir place) ∧
    (¬ GroupFits coefficient group → packGroup coefficient fir (2 * group) = none) := by
  have below (i : Nat) : coefficient i < -2048 ↔ (coefficient i).toInt < -2048 :=
    Int32.lt_iff_toInt_lt
  have above (i : Nat) : coefficient i > 2047 ↔ 2047 < (coefficient i).toInt :=
    Int32.lt_iff_toInt_lt
  have place : 8 + 2 * group * 3 / 2 = 8 + 3 * group := by omega
  unfold packGroup
  dsimp only
  rw [place]
  constructor
  · intro fits
    have first := fits (2 * group) (by omega)
    have second := fits (2 * group + 1) (by omega)
    rw [← Nat.add_assoc] at second
    have inside :
        ¬ (coefficient (8 + 2 * group) < -2048 ∨ coefficient (8 + 2 * group) > 2047 ∨
          coefficient (8 + 2 * group + 1) < -2048 ∨
            coefficient (8 + 2 * group + 1) > 2047) := by
      rw [below, above, below, above]
      omega
    rw [if_neg inside]
    refine ⟨_, rfl, ⟨?_, ?_, ?_⟩, ?_⟩
    · simp [store]
    · simp [store]
    · simp [store]
    · intro other isBelow
      simp only [store]
      rw [if_neg (by omega), if_neg (by omega), if_neg (by omega)]
  · intro outside
    rw [if_pos]
    by_contra inside
    rw [below, above, below, above] at inside
    apply outside
    intro i ofGroup
    obtain rfl | rfl : i = 2 * group ∨ i = 2 * group + 1 := by omega
    · omega
    · rw [← Nat.add_assoc]
      omega

/-- The first loop. -/
theorem packBytes_eq (fir : Bytes) :
    ((∀ i < 8, ByteFits coefficient i) →
      ∃ after,
        (List.range 8).foldlM (packByte coefficient) fir = some after ∧
          ∀ i < 8, after i = (coefficient i).toUInt32.toUInt8) ∧
    ((¬ ∀ i < 8, ByteFits coefficient i) →
      (List.range 8).foldlM (packByte coefficient) fir = none) := by
  refine
    @foldlM_guarded _ _ _
      (fun count (fir : Bytes) =>
        ∀ i < count, fir i = (coefficient i).toUInt32.toUInt8)
      fir (fun i isBefore => absurd isBefore (Nat.not_lt_zero i)) ?_ ?_ 8
  · intro count middle bytes fits
    refine ⟨_, (packByte_eq middle count).1 fits, ?_⟩
    intro i isBefore
    unfold store
    split
    · rename_i isLast
      rw [isLast]
    · exact bytes i (by omega)
  · intro count middle outside
    exact (packByte_eq middle count).2 outside

/-- The second loop. -/
theorem packGroups_eq (fir : Bytes) :
    ((∀ group < 4, GroupFits coefficient group) →
      ∃ after,
        (List.range' 0 4 2).foldlM (packGroup coefficient) fir = some after ∧
          (∀ place < 8, after place = fir place) ∧
            ∀ group < 4, Grouped coefficient after group) ∧
    ((¬ ∀ group < 4, GroupFits coefficient group) →
      (List.range' 0 4 2).foldlM (packGroup coefficient) fir = none) := by
  have places : List.range' 0 4 2 = (List.range 4).map (fun group => 2 * group) := rfl
  rw [places, List.foldlM_map]
  refine
    @foldlM_guarded _ _ _
      (fun count (after : Bytes) =>
        (∀ place < 8, after place = fir place) ∧
          ∀ group < count, Grouped coefficient after group)
      fir ⟨fun _ _ => rfl, fun group isBefore => absurd isBefore (Nat.not_lt_zero group)⟩
      ?_ ?_ 4
  · rintro count middle ⟨kept, groups⟩ fits
    obtain ⟨after, packed, grouped, earlier⟩ := (packGroup_eq middle count).1 fits
    refine ⟨after, packed, ?_, ?_⟩
    · intro place isByte
      rw [earlier place (by omega), kept place isByte]
    · intro group isBefore
      rcases Nat.lt_succ_iff_lt_or_eq.mp isBefore with isBelow | rfl
      · obtain ⟨first, middle, last⟩ := groups group isBelow
        refine ⟨?_, ?_, ?_⟩
        · rw [earlier _ (by omega), first]
        · rw [earlier _ (by omega), middle]
        · rw [earlier _ (by omega), last]
      · exact grouped
  · intro count middle outside
    exact (packGroup_eq middle count).2 outside

/-- A group gives its two coefficients back. -/
theorem Grouped.signed_eq
    {fir : Bytes}
    {group : Nat}
    (grouped : Grouped coefficient fir group)
    (fits : GroupFits coefficient group) :
    signed 12
        ((fir (8 + 3 * group)).toNat * 16 + (fir (8 + 3 * group + 1)).toNat / 16) =
      (coefficient (8 + 2 * group)).toInt ∧
    signed 12
        ((fir (8 + 3 * group + 1)).toNat % 16 * 256 + (fir (8 + 3 * group + 2)).toNat) =
      (coefficient (8 + 2 * group + 1)).toInt := by
  have firstFits := fits (2 * group) (by omega)
  have secondFits := fits (2 * group + 1) (by omega)
  rw [← Nat.add_assoc] at secondFits
  rw [grouped.first, grouped.middle, grouped.last]
  have first := toNat_lowByte (coefficient (8 + 2 * group) >>> 4)
  rw [@toInt_shiftRight _ 4 4 (by decide) (by decide)] at first
  have middle :=
    toNat_middleByte (coefficient (8 + 2 * group)) (coefficient (8 + 2 * group + 1))
  have last := toNat_lowByte (coefficient (8 + 2 * group + 1))
  constructor
  · apply RtlSdrFir.signed_eq
    · omega
    · push_cast
      rw [first, middle]
      omega
  · apply RtlSdrFir.signed_eq
    · omega
    · push_cast
      rw [middle, last]
      omega

/-- Coefficients in range are packed, and the bytes give them back; others are not. -/
theorem pack_decode (fir : Bytes) :
    (InRange coefficient →
      ∃ packed,
        pack coefficient fir = some packed ∧
          ∀ i < 16, decode packed i = (coefficient i).toInt) ∧
    (¬ InRange coefficient → pack coefficient fir = none) := by
  rw [inRange_iff]
  unfold pack
  obtain ⟨onBytes, noBytes⟩ := @packBytes_eq coefficient fir
  by_cases bytesFit : ∀ i < 8, ByteFits coefficient i
  · obtain ⟨middle, ran, bytes⟩ := onBytes bytesFit
    obtain ⟨onGroups, noGroups⟩ := @packGroups_eq coefficient middle
    rw [ran, Option.bind_eq_bind, Option.bind_some]
    constructor
    · rintro ⟨-, groupsFit⟩
      obtain ⟨packed, packs, kept, groups⟩ := onGroups groupsFit
      refine ⟨packed, packs, ?_⟩
      intro i isPlace
      unfold decode
      dsimp only
      split
      · rename_i isByte
        rw [kept i isByte, bytes i isByte]
        have fits := bytesFit i isByte
        unfold ByteFits at fits
        have lowest := toNat_lowByte (coefficient i)
        apply RtlSdrFir.signed_eq <;> omega
      · have isGroup : (i - 8) / 2 < 4 := by omega
        obtain ⟨even, odd⟩ := (groups _ isGroup).signed_eq (groupsFit _ isGroup)
        rw [Nat.mul_comm 3] at even odd
        split
        · rw [even]
          congr
          omega
        · rw [odd]
          congr
          omega
    · intro outside
      exact noGroups (fun groupsFit => outside ⟨bytesFit, groupsFit⟩)
  · rw [noBytes bytesFit]
    exact ⟨fun fits => absurd fits.1 bytesFit, fun _ => rfl⟩

end Packing

/-- Coefficients out of range are refused without a transfer; the others are written,
and the bytes in the registers give them back. -/
theorem setFir_coefficients
    (answer : Made → Transfer → Int32)
    (coefficient : Nat → Int32)
    (fir : Bytes)
    (made : Made) :
    (¬ InRange coefficient →
      setFir answer coefficient fir made = (-1, made)) ∧
    (InRange coefficient →
      ∃ new,
        (setFir answer coefficient fir made).2 = made ++ new ∧
          (Succeeded new →
            (setFir answer coefficient fir made).1 = 0 ∧
              ∃ packed,
                writes new = (List.range 20).map (fun i => byteWrite i (packed i)) ∧
                  ∀ i < 16, decode packed i = (coefficient i).toInt)) := by
  obtain ⟨onFits, onOutside⟩ := @pack_decode coefficient fir
  unfold setFir
  constructor
  · intro outside
    rw [onOutside outside]
  · intro fits
    obtain ⟨packed, packs, decoded⟩ := onFits fits
    rw [packs]
    obtain ⟨new, transfers, onSuccess⟩ :=
      writeBytes_writes answer packed (List.range 20) made
    refine ⟨new, transfers, ?_⟩
    intro succeeded
    obtain ⟨result, written⟩ := onSuccess succeeded
    exact ⟨result, packed, written, decoded⟩

end LibRtlSdr.RtlSdrFir
