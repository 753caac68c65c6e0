import LibRtlSdr.RtlEepromImage
import Mathlib.Order.Interval.Finset.Nat
import Mathlib.Order.Lattice

namespace LibRtlSdr.RtlEeprom

open BoundedBuffer

/-!
# Where the string descriptors of `rtl_eeprom` lie

The writer tests its limit once for each character, before the two bytes of it are
written, and not at all for the two bytes in front of a string.  Three descriptors with
31 characters or fewer end at byte 77; with more, byte 78 belongs to one of them, or
they lie behind it.
-/

/-! ## Well-formed images -/

/-- The string descriptors of a configuration: where each begins, and its string. -/
def descriptors (conf : Config) : List (Nat × CString) :=
  let product := nextDescriptor strOffset conf.manufacturer
  let serial := nextDescriptor product conf.product
  [(strOffset, conf.manufacturer), (product, conf.product), (serial, conf.serial)]

/-- The bytes of a descriptor. -/
def descriptorBytes (descriptor : Nat × CString) : Finset Nat :=
  Finset.Ico descriptor.1 (nextDescriptor descriptor.1 descriptor.2)

/-- The descriptors have the space between the header and the IR configuration. -/
structure WellFormed (conf : Config) (image : Image) : Prop where
  disjoint :
    (descriptors conf).Pairwise
      (fun first second => Disjoint (descriptorBytes first) (descriptorBytes second))
  inside :
    ∀ descriptor ∈ descriptors conf, descriptorBytes descriptor ⊆ Finset.Icc 9 77
  typed :
    ∀ descriptor ∈ descriptors conf, image (descriptor.1 + 1) = 0x03
  length :
    ∀ descriptor ∈ descriptors conf,
      descriptor.1 + (image descriptor.1).toNat =
        nextDescriptor descriptor.1 descriptor.2
  irConfig :
    ∀ descriptor ∈ descriptors conf, 78 ∉ descriptorBytes descriptor

/-- The characters of all strings. -/
def characters (conf : Config) : Nat :=
  conf.manufacturer.bytes.length + conf.product.bytes.length +
    conf.serial.bytes.length

/--
The totals that pass the limit although they are too long: the last character begins at
byte 77 or before, and what is written behind byte 78 is not a character.
-/
def PassesLimit (conf : Config) : Prop :=
  characters conf = 32 ∨
    characters conf = 33 ∧ conf.serial.bytes.length = 0 ∨
    characters conf = 34 ∧ conf.product.bytes.length = 0 ∧
      conf.serial.bytes.length = 0

/-! ## When a string is accepted -/

/-- The last character of a string begins before byte 78. -/
def HasRoom (pos : Nat) (str : CString) : Prop :=
  str.bytes.length = 0 ∨ pos + 2 * str.bytes.length < 78

theorem setChars_isSome_iff
    {pos j : Nat}
    {chars : List Byte}
    {data : Image} :
    (setChars pos j chars data).1.isSome ↔
      chars.length = 0 ∨ pos + j + 2 * chars.length < 80 := by
  induction chars generalizing j data with
  | nil =>
      simp [setChars]
  | cons char rest inductionHypothesis =>
      rw [setChars]
      split
      · rename_i limit
        simp only [Option.isSome_none, Bool.false_eq_true, List.length_cons,
          Nat.succ_ne_zero, false_or, false_iff]
        omega
      · rename_i inLimit
        rw [inductionHypothesis, List.length_cons]
        omega

/-- A string is accepted exactly when it has room. -/
theorem setStringDescriptor_accepts_iff
    {pos : Nat}
    {data : Image}
    {str : CString} :
    0 ≤ (setStringDescriptor pos data str).1 ↔ HasRoom pos str := by
  have accepted :=
    @setChars_isSome_iff pos 2 str.bytes (Function.update data (pos + 1) 3)
  have room :
      (str.bytes.length = 0 ∨ pos + 2 + 2 * str.bytes.length < 80) ↔
        HasRoom pos str := by
    unfold HasRoom
    omega
  rw [← room, ← accepted, setStringDescriptor, if_neg (by omega), Int.toNat_natCast]
  dsimp only
  rcases setChars pos 2 str.bytes (Function.update data (pos + 1) 3) with
    ⟨_ | last, written⟩
  · simp
  · simp only [Option.isSome_some, iff_true]
    omega

/-- The type byte of an accepted string. -/
theorem setStringDescriptor_typed
    {pos : Nat}
    {data : Image}
    {str : CString}
    (accepts : 0 ≤ (setStringDescriptor pos data str).1) :
    (setStringDescriptor pos data str).2 (pos + 1) = 0x03 := by
  obtain ⟨last, written, loop, result⟩ := exists_setChars_of_accepts accepts
  rw [result]
  dsimp only
  rw [Function.update_of_ne (by omega),
    (setChars_accepts loop).2.2.2 (pos + 1) (by omega), Function.update_self]

/-! ## The three strings -/

/-- Each string begins where the one before it ends. -/
def HasRooms (conf : Config) : Prop :=
  ∀ descriptor ∈ descriptors conf, HasRoom descriptor.1 descriptor.2

/-- A configuration is accepted exactly when each of its strings has room. -/
theorem genEepromFromConf_accepts_iff
    (conf : Config)
    (dat : Image) :
    0 ≤ (genEepromFromConf conf dat).1 ↔ HasRooms conf := by
  unfold genEepromFromConf
  dsimp only
  generalize blit 0 (header conf) dat = headed
  have rooms :
      HasRooms conf ↔
        HasRoom strOffset conf.manufacturer ∧
          HasRoom (nextDescriptor strOffset conf.manufacturer) conf.product ∧
          HasRoom
            (nextDescriptor (nextDescriptor strOffset conf.manufacturer) conf.product)
            conf.serial := by
    simp [HasRooms, descriptors]
  rw [rooms]
  constructor
  · intro serialAccepts
    have productAccepts := accepts_of_setStringDescriptor serialAccepts
    have manufacturerAccepts := accepts_of_setStringDescriptor productAccepts
    rw [(setStringDescriptor_accepts manufacturerAccepts).1] at productAccepts serialAccepts
    rw [(setStringDescriptor_accepts productAccepts).1] at serialAccepts
    exact ⟨setStringDescriptor_accepts_iff.mp manufacturerAccepts,
      setStringDescriptor_accepts_iff.mp productAccepts,
      setStringDescriptor_accepts_iff.mp serialAccepts⟩
  · rintro ⟨manufacturer, product, serial⟩
    rw [(setStringDescriptor_accepts (setStringDescriptor_accepts_iff.mpr manufacturer)).1,
      (setStringDescriptor_accepts (setStringDescriptor_accepts_iff.mpr product)).1]
    exact setStringDescriptor_accepts_iff.mpr serial

/-- The accepted totals beyond 31. -/
theorem passesLimit_iff
    (conf : Config) :
    PassesLimit conf ↔ HasRooms conf ∧ 31 < characters conf := by
  simp only [HasRooms, descriptors, List.forall_mem_cons, List.not_mem_nil,
    false_implies, implies_true, and_true, HasRoom, nextDescriptor, strOffset,
    PassesLimit, characters]
  omega

/-! ## What the writer leaves at a descriptor -/

/-- The two bytes in front of a string. -/
structure Headed (descriptor : Nat × CString) (image : Image) : Prop where
  typed : image (descriptor.1 + 1) = 0x03
  length :
    descriptor.1 + (image descriptor.1).toNat =
      nextDescriptor descriptor.1 descriptor.2

/-- What is written behind a descriptor leaves it. -/
theorem Headed.of_before
    {descriptor : Nat × CString}
    {image other : Image}
    (headed : Headed descriptor image)
    (same :
      ∀ address, address < nextDescriptor descriptor.1 descriptor.2 →
        other address = image address) :
    Headed descriptor other := by
  have two : descriptor.1 + 1 < nextDescriptor descriptor.1 descriptor.2 := by
    rw [nextDescriptor]
    omega
  constructor
  · rw [same _ two]
    exact headed.typed
  · rw [same _ (Nat.lt_of_succ_lt two)]
    exact headed.length

/-- The last write of `gen_eeprom_from_conf` meets no other descriptor. -/
theorem Headed.clear78
    {descriptor : Nat × CString}
    {image : Image}
    (headed : Headed descriptor image)
    (odd : descriptor.1 % 2 = 1)
    (elsewhere : descriptor.1 ≠ 77) :
    Headed descriptor (Function.update image 78 0) := by
  constructor
  · rw [Function.update_of_ne (by omega)]
    exact headed.typed
  · rw [Function.update_of_ne (by omega)]
    exact headed.length

/-- A string that is accepted has its two bytes in front. -/
theorem setStringDescriptor_headed
    {pos : Nat}
    {data : Image}
    {str : CString}
    (accepts : 0 ≤ (setStringDescriptor pos data str).1) :
    Headed (pos, str) (setStringDescriptor pos data str).2 := by
  constructor
  · exact setStringDescriptor_typed accepts
  · rw [(setStringDescriptor_accepts accepts).2.1.length, nextDescriptor, Nat.add_assoc]

/-- Descriptors begin at odd places, since the first does. -/
theorem descriptors_odd
    (conf : Config) :
    ∀ descriptor ∈ descriptors conf, descriptor.1 % 2 = 1 := by
  have first : strOffset % 2 = 1 := rfl
  have second := nextDescriptor_odd first conf.manufacturer
  have third := nextDescriptor_odd second conf.product
  simp only [descriptors, List.forall_mem_cons, List.not_mem_nil, false_implies,
    implies_true, and_true]
  exact ⟨first, second, third⟩

/-- All three have their two bytes in front, unless byte 78 is one of these. -/
theorem genEepromFromConf_headed
    {conf : Config}
    {dat : Image}
    (rooms : HasRooms conf) :
    ∀ descriptor ∈ descriptors conf,
      descriptor.1 ≠ 77 → Headed descriptor (genEepromFromConf conf dat).2 := by
  intro descriptor member elsewhere
  have odd := descriptors_odd conf descriptor member
  have serialAccepts := (genEepromFromConf_accepts_iff conf dat).mpr rooms
  have productAccepts := accepts_of_setStringDescriptor serialAccepts
  have manufacturerAccepts := accepts_of_setStringDescriptor productAccepts
  rw [genEepromFromConf] at serialAccepts ⊢
  dsimp only at serialAccepts productAccepts manufacturerAccepts ⊢
  have manufacturer := setStringDescriptor_headed manufacturerAccepts
  rw [(setStringDescriptor_accepts manufacturerAccepts).1] at productAccepts serialAccepts ⊢
  have product := setStringDescriptor_headed productAccepts
  have productKept := (setStringDescriptor_accepts productAccepts).2.2
  rw [(setStringDescriptor_accepts productAccepts).1] at serialAccepts ⊢
  have serial := setStringDescriptor_headed serialAccepts
  have serialKept := (setStringDescriptor_accepts serialAccepts).2.2
  have serialPlace :=
    le_nextDescriptor (nextDescriptor strOffset conf.manufacturer) conf.product
  refine Headed.clear78 ?_ odd elsewhere
  simp only [descriptors, List.mem_cons, List.not_mem_nil, or_false] at member
  rcases member with rfl | rfl | rfl
  · exact (manufacturer.of_before productKept).of_before
      (fun address below => serialKept address (Nat.lt_of_lt_of_le below serialPlace))
  · exact product.of_before serialKept
  · exact serial

/-! ## The exact totals -/

/-- A descriptor that ends behind byte 77 has byte 78 or a byte behind it. -/
theorem not_wellFormed_of_passesLimit
    {conf : Config}
    {image : Image}
    (passes : PassesLimit conf) :
    ¬ WellFormed conf image := by
  intro wellFormed
  obtain ⟨_, tooMany⟩ := (passesLimit_iff conf).mp passes
  have serial :=
    wellFormed.inside
      (nextDescriptor (nextDescriptor strOffset conf.manufacturer) conf.product,
        conf.serial)
      (by simp [descriptors])
  have last :
      nextDescriptor
            (nextDescriptor (nextDescriptor strOffset conf.manufacturer) conf.product)
            conf.serial - 1 ∈
        Finset.Icc 9 77 := by
    apply serial
    simp only [descriptorBytes, Finset.mem_Ico, nextDescriptor, strOffset]
    omega
  rw [Finset.mem_Icc] at last
  simp only [nextDescriptor, strOffset, characters] at last tooMany
  omega

theorem disjoint_descriptorBytes
    {first second : Nat × CString}
    (behind : nextDescriptor first.1 first.2 ≤ second.1) :
    Disjoint (descriptorBytes first) (descriptorBytes second) := by
  rw [Finset.disjoint_left]
  intro place inFirst inSecond
  rw [descriptorBytes, Finset.mem_Ico] at inFirst inSecond
  omega

/-- Accepted strings of 31 characters or fewer make a well-formed image. -/
theorem wellFormed_of_hasRooms
    {conf : Config}
    {dat : Image}
    (rooms : HasRooms conf)
    (few : characters conf ≤ 31) :
    WellFormed conf (genEepromFromConf conf dat).2 := by
  have places :
      ∀ descriptor ∈ descriptors conf,
        9 ≤ descriptor.1 ∧ nextDescriptor descriptor.1 descriptor.2 ≤ 78 := by
    simp only [descriptors, List.forall_mem_cons, List.not_mem_nil, false_implies,
      implies_true, and_true, nextDescriptor, strOffset]
    unfold characters at few
    omega
  have headed :
      ∀ descriptor ∈ descriptors conf,
        Headed descriptor (genEepromFromConf conf dat).2 := by
    intro descriptor member
    apply genEepromFromConf_headed rooms descriptor member
    have placed := (places descriptor member).2
    rw [nextDescriptor] at placed
    omega
  constructor
  · have productPlace :=
      le_nextDescriptor (nextDescriptor strOffset conf.manufacturer) conf.product
    simp only [descriptors, List.pairwise_cons, List.forall_mem_cons, List.not_mem_nil,
      false_implies, implies_true, and_true, List.Pairwise.nil]
    exact ⟨⟨disjoint_descriptorBytes (Nat.le_refl _),
      disjoint_descriptorBytes productPlace⟩,
      disjoint_descriptorBytes (Nat.le_refl _)⟩
  · intro descriptor member place inDescriptor
    have placed := places descriptor member
    rw [descriptorBytes, Finset.mem_Ico] at inDescriptor
    rw [Finset.mem_Icc]
    omega
  · exact fun descriptor member => (headed descriptor member).typed
  · exact fun descriptor member => (headed descriptor member).length
  · intro descriptor member inDescriptor
    have placed := places descriptor member
    rw [descriptorBytes, Finset.mem_Ico] at inDescriptor
    omega

/--
An accepted image is well formed exactly when the strings do not have one of the totals
that pass the limit.
-/
theorem genEepromFromConf_wellFormed_iff
    (conf : Config)
    (dat : Image) :
    (0 ≤ (genEepromFromConf conf dat).1 →
        WellFormed conf (genEepromFromConf conf dat).2) ↔
      ¬ PassesLimit conf := by
  rw [genEepromFromConf_accepts_iff]
  constructor
  · intro wellFormed passes
    exact not_wellFormed_of_passesLimit passes
      (wellFormed ((passesLimit_iff conf).mp passes).1)
  · intro limited rooms
    apply wellFormed_of_hasRooms rooms
    by_contra tooMany
    exact limited ((passesLimit_iff conf).mpr ⟨rooms, Nat.lt_of_not_le tooMany⟩)

/-- A manufacturer of 32 characters and empty strings behind it. -/
def longManufacturer : Config where
  vendorId := 0x0bda
  productId := 0x2838
  manufacturer := ⟨List.replicate 32 0x61, by decide +kernel⟩
  product := ⟨[], nofun⟩
  serial := ⟨[], nofun⟩
  haveSerial := 0
  enableBt := 0
  remoteWakeup := 0

/-- It is accepted, and byte 78 is the type of its third descriptor. -/
theorem genEepromFromConf_longManufacturer :
    0 ≤ (genEepromFromConf longManufacturer fun _ => 0xff).1 ∧
      ¬ WellFormed longManufacturer
        (genEepromFromConf longManufacturer fun _ => 0xff).2 := by
  refine ⟨by decide +kernel, ?_⟩
  intro wellFormed
  have third : (77, ⟨[], nofun⟩) ∈ descriptors longManufacturer := by
    simp [descriptors, longManufacturer, nextDescriptor, strOffset]
  have cleared := wellFormed.typed (77, ⟨[], nofun⟩) third
  exact absurd cleared (by decide +kernel)

end LibRtlSdr.RtlEeprom
