import LibRtlSdr.BoundedBuffer
import Mathlib.Data.List.TakeWhile
import Mathlib.Logic.Function.Basic

namespace LibRtlSdr.RtlEeprom

open BoundedBuffer

/-!
# The EEPROM image of `rtl_eeprom`

The configuration of a stick is kept in an image of bytes: a header of nine
bytes and three USB string descriptors, one behind the other.  The writer and
the reader compute the places of the descriptors separately, and the writer
clears byte 78 at the end, wherever that lies.
-/

abbrev Byte := UInt8

/-- An image; `EEPROM_SIZE` bytes of it belong to the program. -/
abbrev Image := Nat → Byte

/-- What a `char` array holds up to its first zero. -/
structure CString where
  bytes : List Byte
  noNul : ∀ byte ∈ bytes, byte ≠ 0

/-- The string in an array of these characters with a zero behind them. -/
def CString.ofChars (chars : List Byte) : CString where
  bytes := chars.takeWhile (· != 0)
  noNul := by
    intro byte member
    simpa using List.mem_takeWhile_imp member

@[ext]
theorem CString.ext
    {first second : CString}
    (same : first.bytes = second.bytes) :
    first = second := by
  cases first
  cases second
  cases same
  rfl

/-- A string without zeros is read back as a whole. -/
theorem CString.ofChars_bytes (str : CString) :
    CString.ofChars str.bytes = str := by
  apply CString.ext
  apply List.takeWhile_eq_self_iff.mpr
  intro byte member
  simpa using str.noNul byte member

/-- `rtlsdr_config_t`. -/
@[ext]
structure Config where
  vendorId : UInt16
  productId : UInt16
  manufacturer : CString
  product : CString
  serial : CString
  haveSerial : Int32
  enableBt : Int32
  remoteWakeup : Int32

/-- `STR_OFFSET`. -/
def strOffset : Nat :=
  9

/-! ## The writer -/

/--
The loop of `set_string_descriptor` at its index `j`: the characters, each with
a zero behind it, as long as they begin before byte 78.
-/
def setChars (pos : Nat) : Nat → List Byte → Image → Option Nat × Image
  | j, [], data =>
      (some j, data)
  | j, char :: rest, data =>
      if 78 ≤ pos + j then
        (none, data)
      else
        setChars pos (j + 2) rest (blit (pos + j) [char, 0] data)

/-- `set_string_descriptor`. -/
def setStringDescriptor
    (pos : Int)
    (data : Image)
    (str : CString) :
    Int × Image :=
  if pos < 0 then
    (-1, data)
  else
    let typed := Function.update data (pos.toNat + 1) 3
    match setChars pos.toNat 2 str.bytes typed with
    | (none, data) =>
        (-1, data)
    | (some j, data) =>
        (pos + j, Function.update data pos.toNat (UInt8.ofNat j))

/-- The header: the identifiers in little endian order and the flags. -/
def header (conf : Config) : List Byte :=
  [0x28, 0x32,
    (conf.vendorId &&& 0xff).toUInt8,
    (conf.vendorId >>> 8 &&& 0xff).toUInt8,
    (conf.productId &&& 0xff).toUInt8,
    (conf.productId >>> 8 &&& 0xff).toUInt8,
    if conf.haveSerial ≠ 0 then 0xa5 else 0x00,
    0x14 ||| (if conf.remoteWakeup ≠ 0 then 0x01 else 0x00) |||
      (if conf.enableBt ≠ 0 then 0x02 else 0x00),
    0x02]

/-- `gen_eeprom_from_conf`. -/
def genEepromFromConf (conf : Config) (dat : Image) : Int × Image :=
  let manufacturer :=
    setStringDescriptor strOffset (blit 0 (header conf) dat) conf.manufacturer
  let product :=
    setStringDescriptor manufacturer.1 manufacturer.2 conf.product
  let serial :=
    setStringDescriptor product.1 product.2 conf.serial
  (serial.1, Function.update serial.2 78 0)

/-! ## The reader -/

/-- The loop of `get_string_descriptor`: the characters from index `i` on, and the last index. -/
def getChars (pos : Nat) (data : Image) (len i : Nat) : List Byte × Nat :=
  if i < len then
    let rest := getChars pos data len (i + 2)
    (data (pos + i) :: rest.1, rest.2)
  else
    ([], i)
termination_by len - i

/--
`get_string_descriptor`: the string and the place behind the descriptor.  A
wrong descriptor type is only reported.
-/
def getStringDescriptor (pos : Nat) (data : Image) : CString × Nat :=
  let chars := getChars pos data (data pos).toNat 2
  (CString.ofChars chars.1, pos + chars.2)

/-- `parse_eeprom_to_conf`; a wrong header is only reported. -/
def parseEepromToConf (dat : Image) : Config :=
  let manufacturer := getStringDescriptor strOffset dat
  let product := getStringDescriptor manufacturer.2 dat
  let serial := getStringDescriptor product.2 dat
  { vendorId := (dat 2).toUInt16 ||| (dat 3).toUInt16 <<< 8
    productId := (dat 4).toUInt16 ||| (dat 5).toUInt16 <<< 8
    manufacturer := manufacturer.1
    product := product.1
    serial := serial.1
    haveSerial := if dat 6 = 0xa5 then 1 else 0
    enableBt := if dat 7 &&& 0x02 ≠ 0 then 1 else 0
    remoteWakeup := if dat 7 &&& 0x01 ≠ 0 then 1 else 0 }

/-! ## Descriptors in an image -/

/-- Where a descriptor at `pos` ends. -/
def nextDescriptor (pos : Nat) (str : CString) : Nat :=
  pos + 2 + 2 * str.bytes.length

/-- The cells that the reader looks at hold the length and the characters of a string. -/
structure Describes (pos : Nat) (data : Image) (str : CString) : Prop where
  length : (data pos).toNat = 2 + 2 * str.bytes.length
  chars :
    ∀ index char,
      str.bytes[index]? = some char →
      data (pos + 2 + 2 * index) = char

/-- The reader looks only at cells of the descriptor that lie at even distances. -/
theorem Describes.congr
    {pos : Nat}
    {data other : Image}
    {str : CString}
    (describes : Describes pos data str)
    (same :
      ∀ index, index < str.bytes.length + 1 →
        other (pos + 2 * index) = data (pos + 2 * index)) :
    Describes pos other str := by
  constructor
  · rw [← describes.length]
    exact congrArg UInt8.toNat (same 0 (Nat.succ_pos _))
  · intro index char found
    have inString : index < str.bytes.length :=
      (List.getElem?_eq_some_iff.mp found).1
    have cell := same (index + 1) (Nat.succ_lt_succ inString)
    rw [Nat.mul_add, Nat.mul_one, ← Nat.add_assoc, Nat.add_right_comm] at cell
    exact cell.trans (describes.chars index char found)

/-- The loop of the reader collects the characters of a string. -/
theorem getChars_eq
    {pos : Nat}
    {data : Image}
    {chars : List Byte}
    {i : Nat}
    (cells :
      ∀ index char,
        chars[index]? = some char →
        data (pos + i + 2 * index) = char) :
    getChars pos data (i + 2 * chars.length) i =
      (chars, i + 2 * chars.length) := by
  induction chars generalizing i with
  | nil =>
      simp [getChars]
  | cons char rest inductionHypothesis =>
      have first : data (pos + i) = char :=
        cells 0 char rfl
      have others :
          getChars pos data (i + 2 + 2 * rest.length) (i + 2) =
            (rest, i + 2 + 2 * rest.length) := by
        apply inductionHypothesis
        intro index later found
        have cell := cells (index + 1) later found
        rw [Nat.mul_add, Nat.mul_one, Nat.add_comm (2 * index),
          ← Nat.add_assoc] at cell
        exact cell
      have total :
          i + 2 * (char :: rest).length = i + 2 + 2 * rest.length := by
        rw [List.length_cons]
        omega
      rw [total, getChars, if_pos (by omega), others, first]

/-- The reader finds the string that a descriptor describes. -/
theorem Describes.getStringDescriptor
    {pos : Nat}
    {data : Image}
    {str : CString}
    (describes : Describes pos data str) :
    getStringDescriptor pos data = (str, nextDescriptor pos str) := by
  rw [RtlEeprom.getStringDescriptor, describes.length,
    getChars_eq describes.chars, CString.ofChars_bytes, nextDescriptor,
    Nat.add_assoc]

/-! ## What the writer leaves -/

/-- The loop of the writer, when it does not meet its limit. -/
theorem setChars_accepts
    {pos j last : Nat}
    {chars : List Byte}
    {data written : Image}
    (accepts : setChars pos j chars data = (some last, written)) :
    last = j + 2 * chars.length ∧
      (chars ≠ [] → pos + last < 80) ∧
      (∀ index char,
        chars[index]? = some char →
        written (pos + j + 2 * index) = char) ∧
      ∀ address, address < pos + j → written address = data address := by
  induction chars generalizing j data with
  | nil =>
      cases accepts
      exact ⟨rfl, fun notEmpty => absurd rfl notEmpty, nofun,
        fun _ _ => rfl⟩
  | cons char rest inductionHypothesis =>
      rw [setChars] at accepts
      split at accepts
      · cases accepts
      · rename_i inLimit
        rcases inductionHypothesis accepts with
          ⟨length, limit, cells, before⟩
        refine ⟨?_, ?_, ?_, ?_⟩
        · rw [length, List.length_cons]
          omega
        · intro _
          cases rest with
          | nil =>
              rw [length, List.length_nil]
              omega
          | cons next others =>
              exact limit (List.cons_ne_nil next others)
        · intro index found isFound
          cases index with
          | zero =>
              have isHead : char = found := Option.some.inj isFound
              rw [before _ (by omega), ← isHead]
              simp [blit]
          | succ index =>
              have cell := cells index found isFound
              rw [Nat.mul_add, Nat.mul_one, Nat.add_comm (2 * index),
                ← Nat.add_assoc]
              exact cell
        · intro address below
          rw [before address (by omega), blit_of_outside (.inl below)]

/-- Where the writer accepts a string, the loop over its bytes has ended. -/
theorem exists_setChars_of_accepts
    {pos : Nat}
    {data : Image}
    {str : CString}
    (accepts : 0 ≤ (setStringDescriptor pos data str).1) :
    ∃ last written,
      setChars pos 2 str.bytes (Function.update data (pos + 1) 3) = (some last, written) ∧
        setStringDescriptor pos data str =
          ((pos : Int) + last, Function.update written pos (UInt8.ofNat last)) := by
  rw [setStringDescriptor, if_neg (by omega), Int.toNat_natCast] at accepts ⊢
  dsimp only at accepts ⊢
  rcases loop :
      setChars pos 2 str.bytes (Function.update data (pos + 1) 3) with
    ⟨_ | last, written⟩
  · rw [loop] at accepts
    have refused : (0 : Int) ≤ -1 := accepts
    exact absurd refused (by decide)
  · exact ⟨last, written, rfl, rfl⟩

/-- A descriptor that the writer accepts is in the image, and nothing before it changed. -/
theorem setStringDescriptor_accepts
    {pos : Nat}
    {data : Image}
    {str : CString}
    (accepts : 0 ≤ (setStringDescriptor pos data str).1) :
    (setStringDescriptor pos data str).1 = nextDescriptor pos str ∧
      Describes pos (setStringDescriptor pos data str).2 str ∧
      ∀ address, address < pos →
        (setStringDescriptor pos data str).2 address = data address := by
  obtain ⟨last, written, loop, result⟩ := exists_setChars_of_accepts accepts
  rw [result]
  dsimp only
  rcases setChars_accepts loop with ⟨length, limit, cells, before⟩
  have small : last < 256 := by
    cases chars : str.bytes with
    | nil =>
        rw [length, chars, List.length_nil]
        decide
    | cons char rest =>
        have room := limit (by simp [chars])
        omega
  refine ⟨?_, ⟨?_, ?_⟩, ?_⟩
  · rw [nextDescriptor, length]
    push_cast
    omega
  · rw [Function.update_self, UInt8.toNat_ofNat_of_lt' small, length]
  · intro index char found
    rw [Function.update_of_ne (by omega)]
    exact cells index char found
  · intro address below
    rw [Function.update_of_ne (by omega), before address (by omega),
      Function.update_of_ne (by omega)]

/-- A descriptor behind a refused one is refused as well. -/
theorem accepts_of_setStringDescriptor
    {pos : Int}
    {data : Image}
    {str : CString}
    (accepts : 0 ≤ (setStringDescriptor pos data str).1) :
    0 ≤ pos := by
  by_contra negative
  rw [setStringDescriptor, if_pos (by omega)] at accepts
  have refused : (0 : Int) ≤ -1 := accepts
  exact absurd refused (by decide)

/-- The two bytes of an identifier give it back. -/
theorem littleEndian_eq (value : UInt16) :
    (value &&& 0xff).toUInt8.toUInt16 |||
        (value >>> 8 &&& 0xff).toUInt8.toUInt16 <<< 8 =
      value := by
  apply UInt16.toNat_inj.mp
  have bound := value.toNat_lt
  have low : value.toNat % 256 < 2 ^ 8 :=
    Nat.mod_lt _ (by decide)
  have mask (word : Nat) : word &&& UInt16.toNat 255 = word % 256 :=
    Nat.and_two_pow_sub_one_eq_mod word 8
  have places : UInt16.toNat 8 % 16 = 8 :=
    rfl
  have high :
      (value.toNat >>> 8 % 256 % 2 ^ 8) <<< 8 % 2 ^ 16 =
        2 ^ 8 * (value.toNat / 256) := by
    rw [Nat.shiftRight_eq_div_pow, Nat.shiftLeft_eq]
    omega
  simp only [UInt16.toNat_or, UInt16.toNat_shiftLeft, UInt8.toNat_toUInt16,
    UInt16.toNat_toUInt8, UInt16.toNat_and, UInt16.toNat_shiftRight]
  rw [mask, mask, places, high, Nat.mod_mod, Nat.or_comm,
    ← Nat.two_pow_add_eq_or_of_lt low]
  omega

/-- The flags of a configuration are 0 or 1. -/
structure Config.HasFlags (conf : Config) : Prop where
  haveSerial : conf.haveSerial = 0 ∨ conf.haveSerial = 1
  enableBt : conf.enableBt = 0 ∨ conf.enableBt = 1
  remoteWakeup : conf.remoteWakeup = 0 ∨ conf.remoteWakeup = 1

/-- What the reader takes from the header of an image. -/
theorem parseEepromToConf_header
    {conf : Config}
    {dat image : Image}
    (flags : conf.HasFlags)
    (same :
      ∀ address, address < strOffset →
        image address = blit 0 (header conf) dat address) :
    (parseEepromToConf image).vendorId = conf.vendorId ∧
      (parseEepromToConf image).productId = conf.productId ∧
      (parseEepromToConf image).haveSerial = conf.haveSerial ∧
      (parseEepromToConf image).enableBt = conf.enableBt ∧
      (parseEepromToConf image).remoteWakeup = conf.remoteWakeup := by
  have cells :
      ∀ address byte,
        (header conf)[address]? = some byte → image address = byte := by
    intro address byte found
    have inHeader : address < strOffset :=
      (List.getElem?_eq_some_iff.mp found).1
    rw [same address inHeader, blit, if_pos (Nat.zero_le _), Nat.sub_zero,
      found, Option.getD_some]
  simp only [parseEepromToConf, cells 2 _ rfl, cells 3 _ rfl, cells 4 _ rfl,
    cells 5 _ rfl, cells 6 _ rfl, cells 7 _ rfl, littleEndian_eq, true_and]
  rcases flags with
    ⟨serialOff | serialOn, btOff | btOn, wakeupOff | wakeupOn⟩ <;>
    simp [*] <;> decide

/-- The descriptors of an image that agrees with the written one outside byte 78. -/
theorem parseEepromToConf_strings
    {conf : Config}
    {image : Image}
    (manufacturer : Describes strOffset image conf.manufacturer)
    (product :
      Describes (nextDescriptor strOffset conf.manufacturer) image
        conf.product)
    (serial :
      Describes
        (nextDescriptor (nextDescriptor strOffset conf.manufacturer)
          conf.product)
        image conf.serial) :
    (parseEepromToConf image).manufacturer = conf.manufacturer ∧
      (parseEepromToConf image).product = conf.product ∧
      (parseEepromToConf image).serial = conf.serial := by
  simp only [parseEepromToConf, manufacturer.getStringDescriptor,
    product.getStringDescriptor, serial.getStringDescriptor, true_and]

/-- The cells of a descriptor at an odd place are not byte 78. -/
theorem Describes.clear78
    {pos : Nat}
    {data : Image}
    {str : CString}
    (describes : Describes pos data str)
    (odd : pos % 2 = 1) :
    Describes pos (Function.update data 78 0) str := by
  apply describes.congr
  intro index _
  exact Function.update_of_ne (by omega) _ _

/-- What lies before a later write stays described. -/
theorem Describes.of_before
    {pos : Nat}
    {data other : Image}
    {str : CString}
    (describes : Describes pos data str)
    (same :
      ∀ address, address < nextDescriptor pos str →
        other address = data address) :
    Describes pos other str := by
  apply describes.congr
  intro index inString
  apply same
  rw [nextDescriptor]
  omega

theorem le_nextDescriptor (pos : Nat) (str : CString) :
    pos ≤ nextDescriptor pos str := by
  rw [nextDescriptor, Nat.add_assoc]
  exact Nat.le_add_right pos _

/-- A descriptor behind one at an odd place is at an odd place. -/
theorem nextDescriptor_odd
    {pos : Nat}
    (odd : pos % 2 = 1)
    (str : CString) :
    nextDescriptor pos str % 2 = 1 := by
  rw [nextDescriptor]
  omega

/-- Three descriptors, each written behind the ones before it, are read back. -/
theorem parseEepromToConf_chain
    {conf : Config}
    {dat first second third : Image}
    (flags : conf.HasFlags)
    (headerKept :
      ∀ address, address < strOffset →
        first address = blit 0 (header conf) dat address)
    (manufacturer : Describes strOffset first conf.manufacturer)
    (manufacturerKept :
      ∀ address, address < nextDescriptor strOffset conf.manufacturer →
        second address = first address)
    (product :
      Describes (nextDescriptor strOffset conf.manufacturer) second
        conf.product)
    (productKept :
      ∀ address,
        address <
          nextDescriptor (nextDescriptor strOffset conf.manufacturer)
            conf.product →
        third address = second address)
    (serial :
      Describes
        (nextDescriptor (nextDescriptor strOffset conf.manufacturer)
          conf.product)
        third conf.serial) :
    parseEepromToConf (Function.update third 78 0) = conf := by
  have productPlace :=
    le_nextDescriptor (nextDescriptor strOffset conf.manufacturer)
      conf.product
  have manufacturerPlace := le_nextDescriptor strOffset conf.manufacturer
  have headerSame :
      ∀ address, address < strOffset →
        Function.update third 78 0 address =
          blit 0 (header conf) dat address := by
    intro address inHeader
    have notCleared : address ≠ 78 := by
      rintro rfl
      exact absurd inHeader (by decide)
    rw [Function.update_of_ne notCleared, productKept address (by omega),
      manufacturerKept address (by omega), headerKept address inHeader]
  have manufacturerThird :
      Describes strOffset third conf.manufacturer :=
    (manufacturer.of_before manufacturerKept).of_before
      fun address below => productKept address (by omega)
  have productThird := product.of_before productKept
  have offsetOdd : strOffset % 2 = 1 :=
    rfl
  have productOdd := nextDescriptor_odd offsetOdd conf.manufacturer
  have serialOdd := nextDescriptor_odd productOdd conf.product
  have strings :=
    parseEepromToConf_strings
      (manufacturerThird.clear78 offsetOdd)
      (productThird.clear78 productOdd)
      (serial.clear78 serialOdd)
  have fields := parseEepromToConf_header flags headerSame
  exact Config.ext fields.1 fields.2.1 strings.1 strings.2.1 strings.2.2
    fields.2.2.1 fields.2.2.2.1 fields.2.2.2.2

/-- An accepted configuration is read back from its image as a whole. -/
theorem parse_genEepromFromConf
    (conf : Config)
    (flags : conf.HasFlags)
    (dat : Image)
    (accepts : 0 ≤ (genEepromFromConf conf dat).1) :
    parseEepromToConf (genEepromFromConf conf dat).2 = conf := by
  have productAccepts := accepts_of_setStringDescriptor accepts
  have manufacturerAccepts := accepts_of_setStringDescriptor productAccepts
  rw [genEepromFromConf] at accepts ⊢
  dsimp only at accepts ⊢
  rcases setStringDescriptor_accepts manufacturerAccepts with
    ⟨manufacturerEnd, manufacturer, headerKept⟩
  rw [manufacturerEnd] at productAccepts accepts ⊢
  rcases setStringDescriptor_accepts productAccepts with
    ⟨productEnd, product, manufacturerKept⟩
  rw [productEnd] at accepts ⊢
  rcases setStringDescriptor_accepts accepts with
    ⟨_, serial, productKept⟩
  exact parseEepromToConf_chain flags headerKept manufacturer
    manufacturerKept product productKept serial

/-- The bytes of a text. -/
def charBytes (text : String) : List Byte :=
  text.toList.map fun char => UInt8.ofNat char.toNat

/-- The default configuration `realtek_oem` of `gen_default_conf`. -/
def realtekOem : Config where
  vendorId := 0x0bda
  productId := 0x2838
  manufacturer := ⟨charBytes "Realtek", by decide +kernel⟩
  product := ⟨charBytes "RTL2838UHIDIR", by decide +kernel⟩
  serial := ⟨charBytes "00000001", by decide +kernel⟩
  haveSerial := 1
  enableBt := 1
  remoteWakeup := 0

/-- The default configuration is accepted, also in an image of ones. -/
theorem parse_genEepromFromConf_realtekOem :
    parseEepromToConf (genEepromFromConf realtekOem fun _ => 0xff).2 =
      realtekOem :=
  parse_genEepromFromConf realtekOem
    ⟨.inr rfl, .inr rfl, .inl rfl⟩
    (fun _ => 0xff)
    (by decide +kernel)

end LibRtlSdr.RtlEeprom
