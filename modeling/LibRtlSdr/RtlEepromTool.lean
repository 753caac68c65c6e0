import LibRtlSdr.RtlEepromLayout
import LibRtlSdr.RtlEepromReads
import LibRtlSdr.RtlSdrEepromTransfers

namespace LibRtlSdr.RtlEeprom

open BoundedBuffer
open RtlSdrEeprom (Device)

/-!
# Sequences of `rtl_eeprom`

An invocation of the program reads the whole EEPROM, shows the configuration in it,
makes a new image from the options, shows that too and writes it if the user agrees.
What the next invocation meets is only the bytes that this one has left, so that what
it shows rests on the writer and the reader of images and on the transfers of bytes
together.
-/

/-! ## Source -/

/-- `enum configs` without `CONF_NONE`. -/
inductive DefaultConfig where
  | realtek
  | realtekEeprom
  | terratecNoxon
  | terratecTBlack
  | terratecTPlus
deriving DecidableEq

/-- `gen_default_conf`. -/
def genDefaultConf : DefaultConfig → Config
  | .realtek =>
      { vendorId := 0x0bda
        productId := 0x2832
        manufacturer := ⟨charBytes "Generic", by decide +kernel⟩
        product := ⟨charBytes "RTL2832U DVB-T", by decide +kernel⟩
        serial := ⟨charBytes "0", by decide +kernel⟩
        haveSerial := 1
        enableBt := 0
        remoteWakeup := 1 }
  | .realtekEeprom =>
      realtekOem
  | .terratecNoxon =>
      { vendorId := 0x0ccd
        productId := 0x00b3
        manufacturer := ⟨charBytes "NOXON", by decide +kernel⟩
        product := ⟨charBytes "DAB Stick", by decide +kernel⟩
        serial := ⟨charBytes "0", by decide +kernel⟩
        haveSerial := 1
        enableBt := 0
        remoteWakeup := 1 }
  | .terratecTBlack =>
      { realtekOem with
        vendorId := 0x0ccd
        productId := 0x00a9 }
  | .terratecTPlus =>
      { realtekOem with
        vendorId := 0x0ccd
        productId := 0x00d7 }

/-- The chain of `strcmp` behind the option `-g`. -/
def defaultConfigOf (optarg : CString) : Option DefaultConfig :=
  if optarg.bytes = charBytes "realtek" then
    some .realtek
  else if optarg.bytes = charBytes "realtek_oem" then
    some .realtekEeprom
  else if optarg.bytes = charBytes "noxon" then
    some .terratecNoxon
  else if optarg.bytes = charBytes "terratec_black" then
    some .terratecTBlack
  else if optarg.bytes = charBytes "terratec_plus" then
    some .terratecTPlus
  else
    none

/-- One option of the command line; of the number behind `-b` its `atoi`. -/
inductive ToolOption where
  | m (manufStr : CString)
  | p (productStr : CString)
  | s (serialStr : CString)
  | b (number : Int32)
  | g (conf : CString)
  | w
  | r

/-- The variables of `main` that its options set. -/
structure ToolOptions where
  manufStr : Option CString
  productStr : Option CString
  serialStr : Option CString
  enableBt : Int32
  defaultConfig : Option DefaultConfig
  filename : Bool
  flashFile : Bool
  change : Bool

/-- One pass of the loop over `getopt`; a name that `-g` does not know changes nothing. -/
def ToolOptions.take (options : ToolOptions) : ToolOption → ToolOptions
  | .m manufStr =>
      { options with manufStr := some manufStr, change := true }
  | .p productStr =>
      { options with productStr := some productStr, change := true }
  | .s serialStr =>
      { options with serialStr := some serialStr, change := true }
  | .b number =>
      { options with enableBt := if 0 < number then -1 else 1, change := true }
  | .g conf =>
      let defaultConfig := (defaultConfigOf conf).or options.defaultConfig
      { options with
        defaultConfig := defaultConfig
        change := options.change || defaultConfig.isSome }
  | .w =>
      { options with flashFile := true, change := true, filename := true }
  | .r =>
      { options with filename := true }

/-- The loop over `getopt`. -/
def toolOptions (optv : List ToolOption) : ToolOptions :=
  optv.foldl ToolOptions.take ⟨none, none, none, 0, none, false, false, false⟩

/-- `strncpy` of a string into a field, which leaves room for its zero. -/
def strncpy (str : CString) : CString where
  bytes := str.bytes.take (maxStrSize - 1)
  noNul := fun byte member => str.noNul byte (List.mem_of_mem_take member)

/-- The fields that the options replace. -/
def edited (options : ToolOptions) (conf : Config) : Config :=
  { conf with
    manufacturer := (options.manufStr.map strncpy).getD conf.manufacturer
    product := (options.productStr.map strncpy).getD conf.product
    serial := (options.serialStr.map strncpy).getD conf.serial
    haveSerial := if options.serialStr.isSome then 1 else conf.haveSerial
    enableBt :=
      if options.enableBt ≠ 0 then
        if 0 < options.enableBt then 1 else 0
      else
        conf.enableBt }

/-- The configuration that the image is made from; a default one replaces all fields. -/
def newConfig (options : ToolOptions) (conf : Config) : Config :=
  match options.defaultConfig with
  | some config =>
      genDefaultConf config
  | none =>
      edited options conf

/-- An invocation of the program and what it meets, but for the bytes of the stick. -/
structure Invocation where
  optv : List ToolOption
  /-- The file that is named, if `fopen` opens it. -/
  file : Option (List Byte)
  /-- What `getchar` returns, as a `char`. -/
  answer : Byte
  /-- `buf` and what lies behind it, before it is filled. -/
  stack : Image
  /-- `cmd[1]` of `rtlsdr_write_eeprom` before it is set. -/
  scratch : Byte
  pointer : Byte
  afterStore : Byte → Byte → Byte
  /-- The outcomes of the transfers. -/
  outcome : Nat → Int

/-- The stick as this invocation finds it. -/
def Invocation.plugged (run : Invocation) (bytes : Nat → Byte) : Device where
  bytes := bytes
  pointer := run.pointer
  afterStore := run.afterStore
  outcome := run.outcome

/-- The variables of an invocation. -/
def Invocation.options (run : Invocation) : ToolOptions :=
  toolOptions run.optv

/-- A file is named and cannot be opened. -/
def Invocation.NoFile (run : Invocation) : Prop :=
  run.options.filename ∧ run.file = none

instance (run : Invocation) : Decidable run.NoFile :=
  inferInstanceAs (Decidable (_ ∧ _))

/-- `buf` after `fread`, which fills as much of it as the file has. -/
def Invocation.freadFile (run : Invocation) (buf : Image) : Image :=
  blit 0 ((run.file.getD []).take eepromSize) buf

/--
`main` from the current configuration to the question: the image that is to be written,
unless the program goes to its exit before.
-/
def Invocation.newImage (run : Invocation) (buf : Image) : Option Image :=
  if run.NoFile then
    none
  else if ¬ run.options.change then
    none
  else if run.options.flashFile then
    some (run.freadFile buf)
  else
    let generated :=
      genEepromFromConf (newConfig run.options (parseEepromToConf buf)) buf
    if generated.1 < 0 then
      none
    else
      some generated.2

/-- What `fwrite` puts into the file. -/
def Invocation.dump (run : Invocation) (buf : Image) : Option (List Byte) :=
  if run.options.filename ∧ ¬ run.NoFile ∧ ¬ run.options.flashFile then
    some (window buf 0 eepromSize)
  else
    none

/-- The loop over `getchar`: a zero ends it like the letter `y`. -/
def Invocation.Confirmed (run : Invocation) : Prop :=
  run.answer = 0 ∨ run.answer = 0x79

instance (run : Invocation) : Decidable run.Confirmed :=
  inferInstanceAs (Decidable (_ ∨ _))

/-- How many bytes are written. -/
def Invocation.writeLength (run : Invocation) : Nat :=
  if run.options.flashFile then eepromSize else 128

/-- What an invocation leaves. -/
structure ToolRun where
  /-- The exit status. -/
  status : Int
  /-- The arguments of `dump_config`. -/
  shown : List Config
  dumped : Option (List Byte)
  bytes : Nat → Byte

/-- The last line of `main`. -/
def exitStatus (r : Int) : Int :=
  if 0 ≤ r then r else -r

/-- `main` behind `rtlsdr_open`. -/
def rtlEeprom (run : Invocation) (bytes : Nat → Byte) : ToolRun :=
  let read := (run.plugged bytes).readEeprom 0 (window run.stack 0 eepromSize)
  if read.1 < 0 then
    ⟨exitStatus read.1, [], none, read.2.2.bytes⟩
  else
    let buf := blit 0 read.2.1 run.stack
    let conf := parseEepromToConf buf
    match run.newImage buf with
    | none =>
        ⟨exitStatus read.1, [conf], run.dump buf, read.2.2.bytes⟩
    | some image =>
        if run.Confirmed then
          let written :=
            read.2.2.writeEeprom run.scratch (window image 0 run.writeLength) 0
          ⟨exitStatus written.1, [conf, parseEepromToConf image], run.dump buf,
            written.2.bytes⟩
        else
          ⟨exitStatus read.1, [conf, parseEepromToConf image], run.dump buf,
            read.2.2.bytes⟩

/-- Invocations one after the other, and the bytes that the last one leaves. -/
def rtlEeproms (bytes : Nat → Byte) : List Invocation → List ToolRun × (Nat → Byte)
  | [] =>
      ([], bytes)
  | run :: rest =>
      let first := rtlEeprom run bytes
      let others := rtlEeproms first.bytes rest
      (first :: others.1, others.2)

/-! ## Images that agree -/

/-- The reader of one descriptor depends on the cells that it reads. -/
theorem getChars_congr
    {pos : Nat}
    {data other : Image}
    {len i : Nat}
    (same :
      ∀ index, i + 2 * index < len →
        other (pos + (i + 2 * index)) = data (pos + (i + 2 * index))) :
    getChars pos other len i = getChars pos data len i := by
  fun_induction getChars pos data len i with
  | case1 i more rest inductionHypothesis =>
      have others : getChars pos other len (i + 2) = rest := by
        apply inductionHypothesis
        intro index inString
        have place : i + 2 + 2 * index = i + 2 * (index + 1) := by
          omega
        rw [place] at inString ⊢
        exact same (index + 1) inString
      rw [getChars, if_pos more, others]
      exact congrArg (fun char => (char :: rest.1, rest.2)) (same 0 (by omega))
  | case2 i done =>
      rw [getChars, if_neg done]

/-- A descriptor that lies in the image is read from its bytes alone. -/
theorem getStringDescriptor_congr
    {pos : Nat}
    {data other : Image}
    (same : ∀ address, address < eepromSize → other address = data address)
    (inside :
      pos + 1 < eepromSize ∧ pos + descriptorSize (data pos) < eepromSize + 2) :
    getStringDescriptor pos other = getStringDescriptor pos data := by
  have first : other pos = data pos :=
    same pos (by omega)
  have chars :
      getChars pos other (data pos).toNat 2 = getChars pos data (data pos).toNat 2 := by
    apply getChars_congr
    intro index inString
    apply same
    have size := inside.2
    unfold descriptorSize at size
    omega
  rw [getStringDescriptor, getStringDescriptor, first, chars]

theorem getStringDescriptor_next
    (pos : Nat)
    (data : Image) :
    (getStringDescriptor pos data).2 = pos + descriptorSize (data pos) := by
  rw [← (stringDescriptorAccesses_eq pos data).1, stringDescriptorAccesses_next]

/-- Of an image whose descriptors end in it nothing behind it matters. -/
theorem parseEepromToConf_congr
    {dat other : Image}
    (ends : EndsInImage dat)
    (same : ∀ address, address < eepromSize → other address = dat address) :
    parseEepromToConf other = parseEepromToConf dat ∧ EndsInImage other := by
  obtain ⟨begins, fits⟩ := ends
  have secondSize := two_le_descriptorSize (dat (strOffset + descriptorSize (dat strOffset)))
  have thirdSize := two_le_descriptorSize (dat (thirdDescriptor dat))
  have third :
      thirdDescriptor dat =
        strOffset + descriptorSize (dat strOffset) +
          descriptorSize (dat (strOffset + descriptorSize (dat strOffset))) :=
    rfl
  have low : strOffset < eepromSize := by
    decide
  have manufacturer :=
    getStringDescriptor_congr same
      (⟨by unfold strOffset eepromSize; omega, by omega⟩ :
        strOffset + 1 < eepromSize ∧
          strOffset + descriptorSize (dat strOffset) < eepromSize + 2)
  have product :=
    getStringDescriptor_congr same
      (⟨by omega, by omega⟩ :
        strOffset + descriptorSize (dat strOffset) + 1 < eepromSize ∧ _)
  have serial := getStringDescriptor_congr same ⟨begins, fits⟩
  have thirdSame : thirdDescriptor other = thirdDescriptor dat := by
    unfold thirdDescriptor
    dsimp only
    rw [same strOffset low,
      same (strOffset + descriptorSize (dat strOffset)) (by omega)]
  constructor
  · have cells : ∀ address, address < 8 → other address = dat address :=
      fun address below => same address (Nat.lt_trans below (by decide))
    simp only [parseEepromToConf, manufacturer, getStringDescriptor_next, product,
      ← third, serial, cells 2 (by decide), cells 3 (by decide), cells 4 (by decide),
      cells 5 (by decide), cells 6 (by decide), cells 7 (by decide)]
  · unfold EndsInImage
    rw [thirdSame, same (thirdDescriptor dat) (by omega)]
    exact ⟨begins, fits⟩

theorem flag_of_ite
    (condition : Prop)
    [Decidable condition] :
    (if condition then (1 : Int32) else 0) = 0 ∨ (if condition then (1 : Int32) else 0) = 1 := by
  split_ifs
  · exact .inr rfl
  · exact .inl rfl

/-- The reader makes flags. -/
theorem parseEepromToConf_hasFlags (dat : Image) : (parseEepromToConf dat).HasFlags :=
  ⟨flag_of_ite _, flag_of_ite _, flag_of_ite _⟩

/-- So do the options. -/
theorem newConfig_hasFlags
    {conf : Config}
    (flags : conf.HasFlags)
    (options : ToolOptions) :
    (newConfig options conf).HasFlags := by
  unfold newConfig
  rcases options.defaultConfig with _ | config
  · constructor
    · simp only [edited]
      split_ifs
      · exact .inr rfl
      · exact flags.haveSerial
    · simp only [edited]
      split_ifs with given
      · exact .inr rfl
      · exact .inl rfl
      · exact flags.enableBt
    · exact flags.remoteWakeup
  · cases config <;>
      exact ⟨.inr rfl, by first | exact .inl rfl | exact .inr rfl,
        by first | exact .inl rfl | exact .inr rfl⟩

/-! ## What an image of the writer carries -/

/-- The header of a configuration and its strings, each behind the one before it. -/
structure Carries (conf : Config) (image : Image) : Prop where
  headed :
    ∃ dat : Image,
      ∀ address, address < strOffset → image address = blit 0 (header conf) dat address
  described :
    ∀ descriptor ∈ descriptors conf, Describes descriptor.1 image descriptor.2

/-- An accepted configuration is in its image. -/
theorem genEepromFromConf_carries
    {conf : Config}
    (rooms : HasRooms conf)
    (dat : Image) :
    Carries conf (genEepromFromConf conf dat).2 := by
  have odd := descriptors_odd conf
  have serialAccepts := (genEepromFromConf_accepts_iff conf dat).mpr rooms
  have productAccepts := accepts_of_setStringDescriptor serialAccepts
  have manufacturerAccepts := accepts_of_setStringDescriptor productAccepts
  rw [genEepromFromConf] at serialAccepts ⊢
  dsimp only at serialAccepts productAccepts manufacturerAccepts ⊢
  obtain ⟨manufacturerEnd, manufacturer, headerKept⟩ :=
    setStringDescriptor_accepts manufacturerAccepts
  rw [manufacturerEnd] at productAccepts serialAccepts ⊢
  obtain ⟨productEnd, product, manufacturerKept⟩ :=
    setStringDescriptor_accepts productAccepts
  rw [productEnd] at serialAccepts ⊢
  obtain ⟨_, serial, productKept⟩ := setStringDescriptor_accepts serialAccepts
  have manufacturerPlace := le_nextDescriptor strOffset conf.manufacturer
  have productPlace :=
    le_nextDescriptor (nextDescriptor strOffset conf.manufacturer) conf.product
  constructor
  · refine ⟨dat, fun address inHeader => ?_⟩
    have notCleared : address ≠ 78 := by
      rintro rfl
      exact absurd inHeader (by decide)
    rw [Function.update_of_ne notCleared, productKept address (by omega),
      manufacturerKept address (by omega), headerKept address inHeader]
  · intro descriptor member
    refine Describes.clear78 ?_ (odd descriptor member)
    simp only [descriptors, List.mem_cons, List.not_mem_nil, or_false] at member
    rcases member with rfl | rfl | rfl
    · exact (manufacturer.of_before manufacturerKept).of_before
        fun address below => productKept address (by omega)
    · exact product.of_before productKept
    · exact serial

/-- Where the descriptors of an accepted configuration end. -/
theorem nextDescriptor_le_of_hasRooms
    {conf : Config}
    (rooms : HasRooms conf) :
    ∀ descriptor ∈ descriptors conf, nextDescriptor descriptor.1 descriptor.2 ≤ 84 := by
  simp only [HasRooms, descriptors, List.forall_mem_cons, List.not_mem_nil,
    false_implies, implies_true, and_true, HasRoom, nextDescriptor, strOffset] at rooms ⊢
  omega

namespace Carries

variable {conf : Config} {image : Image}

/-- Nothing behind the descriptors matters. -/
theorem congr
    (carries : Carries conf image)
    (rooms : HasRooms conf)
    {other : Image}
    (same : ∀ address, address < 128 → other address = image address) :
    Carries conf other := by
  constructor
  · obtain ⟨dat, headed⟩ := carries.headed
    have low : strOffset < 128 := by
      decide
    exact ⟨dat, fun address inHeader =>
      (same address (Nat.lt_trans inHeader low)).trans (headed address inHeader)⟩
  · intro descriptor member
    have last := nextDescriptor_le_of_hasRooms rooms descriptor member
    exact (carries.described descriptor member).of_before
      fun address below => same address (by omega)

/-- The reader finds the configuration. -/
theorem parse
    (carries : Carries conf image)
    (flags : conf.HasFlags) :
    parseEepromToConf image = conf := by
  obtain ⟨dat, headed⟩ := carries.headed
  have described := carries.described
  simp only [descriptors, List.forall_mem_cons, List.not_mem_nil, false_implies,
    implies_true, and_true] at described
  have strings :=
    parseEepromToConf_strings described.1 described.2.1 described.2.2
  have fields := parseEepromToConf_header flags headed
  exact Config.ext fields.1 fields.2.1 strings.1 strings.2.1 strings.2.2
    fields.2.2.1 fields.2.2.2.1 fields.2.2.2.2

/-- A descriptor has the size of its string. -/
theorem place_descriptorSize
    (carries : Carries conf image)
    {descriptor : Nat × CString}
    (member : descriptor ∈ descriptors conf) :
    descriptor.1 + descriptorSize (image descriptor.1) =
      nextDescriptor descriptor.1 descriptor.2 := by
  unfold descriptorSize nextDescriptor
  rw [(carries.described descriptor member).length]
  omega

/-- The descriptors end in the image. -/
theorem endsInImage
    (carries : Carries conf image)
    (rooms : HasRooms conf) :
    EndsInImage image := by
  have manufacturer : (strOffset, conf.manufacturer) ∈ descriptors conf := by
    simp [descriptors]
  have product :
      (nextDescriptor strOffset conf.manufacturer, conf.product) ∈ descriptors conf := by
    simp [descriptors]
  have serial :
      (nextDescriptor (nextDescriptor strOffset conf.manufacturer) conf.product,
        conf.serial) ∈ descriptors conf := by
    simp [descriptors]
  have third :
      thirdDescriptor image =
        nextDescriptor (nextDescriptor strOffset conf.manufacturer) conf.product := by
    unfold thirdDescriptor
    dsimp only
    rw [carries.place_descriptorSize manufacturer, carries.place_descriptorSize product]
  have serialSize := carries.place_descriptorSize serial
  have last := nextDescriptor_le_of_hasRooms rooms _ serial
  have begins :=
    le_nextDescriptor
      (nextDescriptor (nextDescriptor strOffset conf.manufacturer) conf.product)
      conf.serial
  unfold EndsInImage eepromSize
  rw [third]
  dsimp only at serialSize last
  omega

end Carries

end LibRtlSdr.RtlEeprom
