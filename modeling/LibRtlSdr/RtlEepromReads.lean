import LibRtlSdr.RtlEepromImage
import Mathlib.Order.Lattice

namespace LibRtlSdr.RtlEeprom

/-!
# The accesses of the reader of `rtl_eeprom`

`get_string_descriptor` follows the length byte of a descriptor wherever it leads: one
byte out of two is copied up to that length, and the next descriptor is sought behind
it.  The field of a string is long enough for any length byte; the image is not.
-/

/-! ## Source -/

/-- `EEPROM_SIZE`. -/
def eepromSize : Nat :=
  256

/-- `MAX_STR_SIZE`. -/
def maxStrSize : Nat :=
  256

/-- Where a function reads the image, and what it stores in the field of a string. -/
structure Accesses where
  reads : List Nat
  stores : List (Nat × Byte)

/--
The loop of `get_string_descriptor` from its indices `i` and `j` on, and the zero behind
the string; also the last `i`.
-/
def copyChars (pos : Nat) (data : Image) (len i j : Nat) : Nat × Accesses :=
  if i < len then
    let rest := copyChars pos data len (i + 2) (j + 1)
    (rest.1, ⟨(pos + i) :: rest.2.reads, (j, data (pos + i)) :: rest.2.stores⟩)
  else
    (i, ⟨[], [(j, 0x00)]⟩)
termination_by len - i

/-- `get_string_descriptor`: the place behind the descriptor, and the accesses. -/
def stringDescriptorAccesses (pos : Nat) (data : Image) : Nat × Accesses :=
  let loop := copyChars pos data (data pos).toNat 2 0
  (pos + loop.1, ⟨pos :: (pos + 1) :: loop.2.reads, loop.2.stores⟩)

/-- The accesses of `parse_eeprom_to_conf`. -/
structure ParseAccesses where
  reads : List Nat
  manufacturer : List (Nat × Byte)
  product : List (Nat × Byte)
  serial : List (Nat × Byte)

/-- `parse_eeprom_to_conf`: the header, and three descriptors one behind the other. -/
def parseAccesses (dat : Image) : ParseAccesses :=
  let manufacturer := stringDescriptorAccesses strOffset dat
  let product := stringDescriptorAccesses manufacturer.1 dat
  let serial := stringDescriptorAccesses product.1 dat
  { reads :=
      0 :: (if dat 0 = 0x28 then [1] else []) ++ [2, 3, 4, 5, 6, 7, 7] ++
        manufacturer.2.reads ++ product.2.reads ++ serial.2.reads
    manufacturer := manufacturer.2.stores
    product := product.2.stores
    serial := serial.2.stores }

/-! ## The strings of the reader -/

/-- The loop stores the characters that the reader returns. -/
theorem copyChars_eq_getChars
    (pos : Nat)
    (data : Image)
    (len i j : Nat) :
    (copyChars pos data len i j).1 = (getChars pos data len i).2 ∧
      (copyChars pos data len i j).2.stores.map Prod.snd =
        (getChars pos data len i).1 ++ [0x00] := by
  fun_induction copyChars pos data len i j with
  | case1 i j more rest inductionHypothesis =>
      rw [getChars, if_pos more]
      refine ⟨inductionHypothesis.1, ?_⟩
      rw [List.map_cons, inductionHypothesis.2]
      rfl
  | case2 i j done =>
      rw [getChars, if_neg done]
      exact ⟨rfl, rfl⟩

/-- The accesses are those of the reader. -/
theorem stringDescriptorAccesses_eq
    (pos : Nat)
    (data : Image) :
    (stringDescriptorAccesses pos data).1 = (getStringDescriptor pos data).2 ∧
      CString.ofChars ((stringDescriptorAccesses pos data).2.stores.map Prod.snd) =
        (getStringDescriptor pos data).1 := by
  have loop := copyChars_eq_getChars pos data (data pos).toNat 2 0
  refine ⟨congrArg (pos + ·) loop.1, ?_⟩
  apply CString.ext
  simp only [stringDescriptorAccesses, getStringDescriptor, CString.ofChars, loop.2]
  induction (getChars pos data (data pos).toNat 2).1 with
  | nil =>
      rfl
  | cons char rest inductionHypothesis =>
      simp only [List.cons_append, List.takeWhile_cons, inductionHypothesis]

/-! ## The bytes of a descriptor -/

/-- The bytes that a length byte makes the reader pass. -/
def descriptorSize (len : Byte) : Nat :=
  max 2 (len.toNat + len.toNat % 2)

/-- The place behind the loop. -/
theorem copyChars_next
    (pos : Nat)
    (data : Image)
    (len i j : Nat) :
    (copyChars pos data len i j).1 = i + 2 * ((len - i + 1) / 2) := by
  fun_induction copyChars pos data len i j with
  | case1 i j more rest inductionHypothesis =>
      dsimp only [rest]
      rw [inductionHypothesis]
      omega
  | case2 i j done =>
      dsimp only
      omega

/-- The last character lies two bytes before the end of the loop. -/
theorem copyChars_reads
    (pos : Nat)
    (data : Image)
    (len i j : Nat) :
    (∀ place ∈ (copyChars pos data len i j).2.reads, place < eepromSize) ↔
      (i < len → pos + (copyChars pos data len i j).1 < eepromSize + 2) := by
  have next := copyChars_next pos data len
  fun_induction copyChars pos data len i j with
  | case1 i j more rest inductionHypothesis =>
      have after := next (i + 2) (j + 1)
      dsimp only [rest]
      rw [List.forall_mem_cons]
      simp only [inductionHypothesis, after]
      omega
  | case2 i j done =>
      simp [done]

/-- A string of a length byte, and its terminator, need no more than 128 bytes. -/
theorem copyChars_stores
    (pos : Nat)
    (data : Image)
    (len i j : Nat) :
    ∀ store ∈ (copyChars pos data len i j).2.stores,
      store.1 ≤ j + (len - i + 1) / 2 := by
  fun_induction copyChars pos data len i j with
  | case1 i j more rest inductionHypothesis =>
      rw [List.forall_mem_cons]
      refine ⟨Nat.le_add_right j _, ?_⟩
      intro store member
      have bound := inductionHypothesis store member
      omega
  | case2 i j done =>
      simp

/-- A descriptor is passed by its size. -/
theorem stringDescriptorAccesses_next
    (pos : Nat)
    (data : Image) :
    (stringDescriptorAccesses pos data).1 = pos + descriptorSize (data pos) := by
  simp only [stringDescriptorAccesses, copyChars_next, descriptorSize]
  omega

/-- When the reads of a descriptor lie in the image. -/
theorem stringDescriptorAccesses_reads
    (pos : Nat)
    (data : Image) :
    (∀ place ∈ (stringDescriptorAccesses pos data).2.reads, place < eepromSize) ↔
      pos + 1 < eepromSize ∧ pos + descriptorSize (data pos) < eepromSize + 2 := by
  have next := stringDescriptorAccesses_next pos data
  simp only [stringDescriptorAccesses] at next ⊢
  rw [List.forall_mem_cons, List.forall_mem_cons, copyChars_reads, next]
  have short : (data pos).toNat ≤ 2 → descriptorSize (data pos) = 2 := by
    unfold descriptorSize
    omega
  omega

/-- Every string fits its field. -/
theorem stringDescriptorAccesses_stores
    (pos : Nat)
    (data : Image) :
    ∀ store ∈ (stringDescriptorAccesses pos data).2.stores, store.1 < maxStrSize := by
  intro store member
  have bound := copyChars_stores pos data (data pos).toNat 2 0 store member
  have byte := (data pos).toNat_lt
  unfold maxStrSize
  omega

/-! ## The chain of three -/

/-- Where the third descriptor begins. -/
def thirdDescriptor (dat : Image) : Nat :=
  let second := strOffset + descriptorSize (dat strOffset)
  second + descriptorSize (dat second)

/--
The third descriptor begins in the image with its first two bytes, and its last
character lies in the image.
-/
def EndsInImage (dat : Image) : Prop :=
  thirdDescriptor dat + 1 < eepromSize ∧
    thirdDescriptor dat + descriptorSize (dat (thirdDescriptor dat)) < eepromSize + 2

instance (dat : Image) : Decidable (EndsInImage dat) :=
  inferInstanceAs (Decidable (_ ∧ _))

theorem two_le_descriptorSize (len : Byte) : 2 ≤ descriptorSize len :=
  Nat.le_max_left 2 _

/-- The reads of the whole parse lie in the image when those of the third descriptor do. -/
theorem parseAccesses_reads
    (dat : Image) :
    (∀ place ∈ (parseAccesses dat).reads, place < eepromSize) ↔ EndsInImage dat := by
  have header :
      ∀ place ∈ 0 :: (if dat 0 = 0x28 then [1] else []) ++ [2, 3, 4, 5, 6, 7, 7],
        place < eepromSize := by
    unfold eepromSize
    split <;> decide
  unfold parseAccesses
  dsimp only
  simp only [List.forall_mem_append, stringDescriptorAccesses_reads,
    stringDescriptorAccesses_next]
  rw [List.forall_mem_append] at header
  unfold EndsInImage thirdDescriptor
  dsimp only
  have third :=
    two_le_descriptorSize
      (dat (strOffset + descriptorSize (dat strOffset) +
        descriptorSize (dat (strOffset + descriptorSize (dat strOffset)))))
  have second :=
    two_le_descriptorSize (dat (strOffset + descriptorSize (dat strOffset)))
  constructor
  · exact fun inside => inside.2
  · intro inside
    refine ⟨⟨⟨header, ?_⟩, ?_⟩, inside⟩ <;> omega

/--
The parse of an image reads inside it exactly when the chain of its three lengths ends
there; its writes are inside their fields for every image.
-/
theorem parseEepromToConf_inside_iff
    (dat : Image) :
    (∀ place ∈ (parseAccesses dat).reads, place < eepromSize) ∧
        (∀ store ∈ (parseAccesses dat).manufacturer, store.1 < maxStrSize) ∧
        (∀ store ∈ (parseAccesses dat).product, store.1 < maxStrSize) ∧
        (∀ store ∈ (parseAccesses dat).serial, store.1 < maxStrSize) ↔
      EndsInImage dat := by
  rw [parseAccesses_reads]
  constructor
  · exact fun inside => inside.1
  · intro ends
    exact ⟨ends, stringDescriptorAccesses_stores _ dat,
      stringDescriptorAccesses_stores _ dat, stringDescriptorAccesses_stores _ dat⟩

/-- The image of an erased EEPROM. -/
def blankImage : Image :=
  fun _ => 0xff

/-- Its first length leads behind the image. -/
theorem parseEepromToConf_blankImage :
    ¬ ∀ place ∈ (parseAccesses blankImage).reads, place < eepromSize := by
  rw [parseAccesses_reads]
  decide +kernel

end LibRtlSdr.RtlEeprom
