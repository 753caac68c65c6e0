import Mathlib.Data.List.Basic

namespace LibRtlSdr.RtlSdr

/-!
# The enumeration of the attached devices

Three functions count the supported devices in the list of `libusb` up to the
index they are given.  The loop is written anew in each of them, with the test
of the index at another place.
-/

/-- `rtlsdr_dongle_t`. -/
structure Dongle where
  vid : UInt16
  pid : UInt16
  name : String
  deriving Repr, DecidableEq

/-- `known_devices`. -/
def knownDevices : List Dongle :=
  [⟨0x0bda, 0x2832, "Generic RTL2832U"⟩,
    ⟨0x0bda, 0x2838, "Generic RTL2832U OEM"⟩,
    ⟨0x0413, 0x6680, "DigitalNow Quad DVB-T PCI-E card"⟩,
    ⟨0x0413, 0x6f0f, "Leadtek WinFast DTV Dongle mini D"⟩,
    ⟨0x0458, 0x707f, "Genius TVGo DVB-T03 USB dongle (Ver. B)"⟩,
    ⟨0x0ccd, 0x00a9, "Terratec Cinergy T Stick Black (rev 1)"⟩,
    ⟨0x0ccd, 0x00b3, "Terratec NOXON DAB/DAB+ USB dongle (rev 1)"⟩,
    ⟨0x0ccd, 0x00b4, "Terratec Deutschlandradio DAB Stick"⟩,
    ⟨0x0ccd, 0x00b5, "Terratec NOXON DAB Stick - Radio Energy"⟩,
    ⟨0x0ccd, 0x00b7, "Terratec Media Broadcast DAB Stick"⟩,
    ⟨0x0ccd, 0x00b8, "Terratec BR DAB Stick"⟩,
    ⟨0x0ccd, 0x00b9, "Terratec WDR DAB Stick"⟩,
    ⟨0x0ccd, 0x00c0, "Terratec MuellerVerlag DAB Stick"⟩,
    ⟨0x0ccd, 0x00c6, "Terratec Fraunhofer DAB Stick"⟩,
    ⟨0x0ccd, 0x00d3, "Terratec Cinergy T Stick RC (Rev.3)"⟩,
    ⟨0x0ccd, 0x00d7, "Terratec T Stick PLUS"⟩,
    ⟨0x0ccd, 0x00e0, "Terratec NOXON DAB/DAB+ USB dongle (rev 2)"⟩,
    ⟨0x1554, 0x5020, "PixelView PV-DT235U(RN)"⟩,
    ⟨0x15f4, 0x0131, "Astrometa DVB-T/DVB-T2"⟩,
    ⟨0x15f4, 0x0133, "HanfTek DAB+FM+DVB-T"⟩,
    ⟨0x185b, 0x0620, "Compro Videomate U620F"⟩,
    ⟨0x185b, 0x0650, "Compro Videomate U650F"⟩,
    ⟨0x185b, 0x0680, "Compro Videomate U680F"⟩,
    ⟨0x1b80, 0xd393, "GIGABYTE GT-U7300"⟩,
    ⟨0x1b80, 0xd394, "DIKOM USB-DVBT HD"⟩,
    ⟨0x1b80, 0xd395, "Peak 102569AGPK"⟩,
    ⟨0x1b80, 0xd397, "KWorld KW-UB450-T USB DVB-T Pico TV"⟩,
    ⟨0x1b80, 0xd398, "Zaapa ZT-MINDVBZP"⟩,
    ⟨0x1b80, 0xd39d, "SVEON STV20 DVB-T USB & FM"⟩,
    ⟨0x1b80, 0xd3a4, "Twintech UT-40"⟩,
    ⟨0x1b80, 0xd3a8, "ASUS U3100MINI_PLUS_V2"⟩,
    ⟨0x1b80, 0xd3af, "SVEON STV27 DVB-T USB & FM"⟩,
    ⟨0x1b80, 0xd3b0, "SVEON STV21 DVB-T USB & FM"⟩,
    ⟨0x1d19, 0x1101, "Dexatek DK DVB-T Dongle (Logilink VG0002A)"⟩,
    ⟨0x1d19, 0x1102, "Dexatek DK DVB-T Dongle (MSI DigiVox mini II V3.0)"⟩,
    ⟨0x1d19, 0x1103, "Dexatek Technology Ltd. DK 5217 DVB-T Dongle"⟩,
    ⟨0x1d19, 0x1104, "MSI DigiVox Micro HD"⟩,
    ⟨0x1f4d, 0xa803, "Sweex DVB-T USB"⟩,
    ⟨0x1f4d, 0xb803, "GTek T803"⟩,
    ⟨0x1f4d, 0xc803, "Lifeview LV5TDeluxe"⟩,
    ⟨0x1f4d, 0xd286, "MyGica TD312"⟩,
    ⟨0x1f4d, 0xd803, "PROlectrix DV107669"⟩]

/-- The fields of `struct libusb_device_descriptor` that tell the device. -/
structure Descriptor where
  idVendor : UInt16
  idProduct : UInt16
  deriving Repr, DecidableEq

/-- `find_known_device`. -/
def findKnownDevice (dd : Descriptor) : Option Dongle :=
  knownDevices.find? fun dongle =>
    dongle.vid = dd.idVendor ∧ dongle.pid = dd.idProduct

/-- What `libusb` answers; a device is told by its place in the list. -/
structure Usb where
  /-- `libusb_init`. -/
  init : Int32
  /-- `libusb_get_device_list`. -/
  attached : List Descriptor
  /-- `libusb_open`. -/
  openDevice : Nat → Int32
  /-- `rtlsdr_get_usb_strings` of an open device. -/
  usbStrings : Nat → Int32
  /-- What `rtlsdr_open` returns of an open device. -/
  start : Nat → Int32

/-- What a function has done: the device it tried to open, and the one it has read. -/
structure Visit where
  opened : Option Nat
  read : Option Nat
  result : Int32
  deriving Repr, DecidableEq

/-- The loop of `rtlsdr_open`, with the place of the next device. -/
def openLoop
    (index : UInt32) :
    (place : Nat) →
    (deviceCount : UInt32) →
    List Descriptor →
    Option Nat
  | _, _, [] =>
      none
  | place, deviceCount, dd :: rest =>
      let deviceCount :=
        if (findKnownDevice dd).isSome then deviceCount + 1 else deviceCount
      if index = deviceCount - 1 then
        some place
      else
        openLoop index (place + 1) deviceCount rest

/-- The loop of `rtlsdr_get_device_usb_strings`. -/
def stringsLoop
    (index : UInt32) :
    (place : Nat) →
    (deviceCount : UInt32) →
    List Descriptor →
    Option Nat
  | _, _, [] =>
      none
  | place, deviceCount, dd :: rest =>
      if (findKnownDevice dd).isSome then
        let deviceCount := deviceCount + 1
        if index = deviceCount - 1 then
          some place
        else
          stringsLoop index (place + 1) deviceCount rest
      else
        stringsLoop index (place + 1) deviceCount rest

/-- The loop of `rtlsdr_get_device_name`; `device` outlives it. -/
def nameLoop
    (index : UInt32) :
    (deviceCount : UInt32) →
    (device : Option Dongle) →
    List Descriptor →
    Option Dongle
  | _, device, [] =>
      device
  | deviceCount, _, dd :: rest =>
      let device := findKnownDevice dd
      if device.isSome then
        let deviceCount := deviceCount + 1
        if index = deviceCount - 1 then
          device
        else
          nameLoop index deviceCount device rest
      else
        nameLoop index deviceCount device rest

namespace Usb

variable (usb : Usb) (index : UInt32)

/-- `rtlsdr_open`. -/
def rtlsdrOpen : Visit :=
  if usb.init < 0 then
    ⟨none, none, -1⟩
  else
    match openLoop index 0 0 usb.attached with
    | none => ⟨none, none, -1⟩
    | some device =>
        ⟨some device, none,
          if usb.openDevice device < 0 then
            usb.openDevice device
          else
            usb.start device⟩

/-- `rtlsdr_get_device_usb_strings`; the result is that of `libusb_init` at first. -/
def getDeviceUsbStrings : Visit :=
  if usb.init < 0 then
    ⟨none, none, usb.init⟩
  else
    match stringsLoop index 0 0 usb.attached with
    | none => ⟨none, none, usb.init⟩
    | some device =>
        if usb.openDevice device = 0 then
          ⟨some device, some device, usb.usbStrings device⟩
        else
          ⟨some device, none, usb.openDevice device⟩

/-- `rtlsdr_get_device_name`. -/
def getDeviceName : String :=
  if usb.init < 0 then
    ""
  else
    match nameLoop index 0 none usb.attached with
    | none => ""
    | some device => device.name

end Usb

/-! ## The supported devices -/

/-- The supported devices of a list, with their places from a first one on. -/
def supportedFrom
    (place : Nat)
    (list : List Descriptor) :
    List (Nat × Dongle) :=
  (list.zipIdx place).filterMap fun entry =>
    (findKnownDevice entry.1).map fun dongle => (entry.2, dongle)

section Supported

variable {place : Nat} {dd : Descriptor} {rest : List Descriptor}

theorem supportedFrom_cons_of_none
    (unsupported : findKnownDevice dd = none) :
    supportedFrom place (dd :: rest) = supportedFrom (place + 1) rest := by
  simp [supportedFrom, unsupported]

theorem supportedFrom_cons_of_some
    {dongle : Dongle}
    (supported : findKnownDevice dd = some dongle) :
    supportedFrom place (dd :: rest) =
      (place, dongle) :: supportedFrom (place + 1) rest := by
  simp [supportedFrom, supported]

/-- No place is before the first one. -/
theorem le_of_mem_supportedFrom
    {list : List Descriptor}
    {entry : Nat × Dongle}
    (member : entry ∈ supportedFrom place list) :
    place ≤ entry.1 := by
  rcases List.mem_filterMap.mp member with ⟨listed, isListed, same⟩
  rcases Option.map_eq_some_iff.mp same with ⟨_, _, rfl⟩
  exact List.le_snd_of_mem_zipIdx isListed

end Supported

/-- An index stands for a supported device in all three functions, or in none. -/
structure Usb.Enumerates (usb : Usb) (index : UInt32) : Prop where
  within :
    ∀ device dongle,
      (supportedFrom 0 usb.attached)[index.toNat]? = some (device, dongle) →
        (usb.rtlsdrOpen index).opened = some device ∧
          (usb.getDeviceUsbStrings index).opened = some device ∧
          (usb.openDevice device = 0 →
            (usb.getDeviceUsbStrings index).read = some device) ∧
          usb.getDeviceName index = dongle.name
  beyond :
    (supportedFrom 0 usb.attached).length ≤ index.toNat →
      (usb.rtlsdrOpen index).opened = none ∧
        (usb.rtlsdrOpen index).result ≠ 0 ∧
        (usb.getDeviceUsbStrings index).opened = none ∧
        (usb.getDeviceUsbStrings index).result ≠ 0 ∧
        usb.getDeviceName index = ""

/-! ## The loops -/

section Loops

variable {index deviceCount : UInt32}

/-- The count of a loop that has not come to its index does not wrap around. -/
theorem toNat_succ
    (below : deviceCount.toNat ≤ index.toNat)
    (notReached : index ≠ deviceCount) :
    (deviceCount + 1).toNat = deviceCount.toNat + 1 := by
  have differ : index.toNat ≠ deviceCount.toNat :=
    fun same => notReached (UInt32.toNat_inj.mp same)
  have bound := index.toNat_lt
  have one : UInt32.toNat 1 = 1 :=
    rfl
  rw [UInt32.toNat_add, one]
  exact Nat.mod_eq_of_lt (by omega)

/-- The device of the index is the next one, or one of the later ones. -/
theorem getElem?_cons_of_count
    {Entry : Type}
    (below : deviceCount.toNat ≤ index.toNat)
    (notReached : index ≠ deviceCount)
    (entry : Entry)
    (later : List Entry) :
    (entry :: later)[index.toNat - deviceCount.toNat]? =
      later[index.toNat - (deviceCount + 1).toNat]? := by
  have succ := toNat_succ below notReached
  have bound : deviceCount.toNat ≠ index.toNat :=
    fun same => notReached (UInt32.toNat_inj.mp same.symm)
  have place :
      index.toNat - deviceCount.toNat =
        index.toNat - (deviceCount + 1).toNat + 1 := by
    omega
  rw [place, List.getElem?_cons_succ]

theorem stringsLoop_eq
    {place : Nat}
    {list : List Descriptor}
    (below : deviceCount.toNat ≤ index.toNat) :
    stringsLoop index place deviceCount list =
      (supportedFrom place list)[index.toNat - deviceCount.toNat]?.map
        Prod.fst := by
  induction list generalizing place deviceCount with
  | nil =>
      rfl
  | cons dd rest inductionHypothesis =>
      unfold stringsLoop
      cases found : findKnownDevice dd with
      | none =>
          rw [supportedFrom_cons_of_none found, if_neg (by simp)]
          exact inductionHypothesis below
      | some dongle =>
          rw [supportedFrom_cons_of_some found, if_pos (by simp)]
          dsimp only
          rw [UInt32.add_sub_cancel]
          by_cases reached : index = deviceCount
          · rw [if_pos reached, reached, Nat.sub_self]
            rfl
          · have succ := toNat_succ below reached
            rw [if_neg reached,
              getElem?_cons_of_count below reached (place, dongle)]
            apply inductionHypothesis
            have differ : index.toNat ≠ deviceCount.toNat :=
              fun same => reached (UInt32.toNat_inj.mp same)
            omega

theorem openLoop_cons_of_none
    {place : Nat}
    {dd : Descriptor}
    {rest : List Descriptor}
    (unsupported : findKnownDevice dd = none) :
    openLoop index place deviceCount (dd :: rest) =
      if index = deviceCount - 1 then
        some place
      else
        openLoop index (place + 1) deviceCount rest := by
  rw [openLoop, unsupported]
  rfl

theorem openLoop_cons_of_some
    {place : Nat}
    {dd : Descriptor}
    {rest : List Descriptor}
    {dongle : Dongle}
    (supported : findKnownDevice dd = some dongle) :
    openLoop index place deviceCount (dd :: rest) =
      if index = deviceCount then
        some place
      else
        openLoop index (place + 1) (deviceCount + 1) rest := by
  rw [openLoop, supported]
  simp only [Option.isSome_some, if_true, UInt32.add_sub_cancel]

/-- A count is not one more than an index above it, unless it wraps around. -/
theorem ne_sub_one
    (below : deviceCount.toNat ≤ index.toNat)
    (started : deviceCount = 0 → index ≠ 0xffffffff) :
    index ≠ deviceCount - 1 := by
  intro same
  by_cases zero : deviceCount = 0
  · exact started zero (by rw [same, zero]; rfl)
  · have positive : 0 < deviceCount.toNat :=
      Nat.pos_of_ne_zero (fun isZero => zero (UInt32.toNat_inj.mp isZero))
    have one : UInt32.toNat 1 = 1 :=
      rfl
    have before : (deviceCount - 1).toNat = deviceCount.toNat - 1 :=
      UInt32.toNat_sub_of_le _ _ (UInt32.le_iff_toNat_le.mpr (by omega))
    rw [same, before] at below
    omega

/-- The loop of `rtlsdr_open`, if its test cannot meet a count of zero. -/
theorem openLoop_eq
    {place : Nat}
    {list : List Descriptor}
    (below : deviceCount.toNat ≤ index.toNat)
    (started : deviceCount = 0 → index ≠ 0xffffffff) :
    openLoop index place deviceCount list =
      (supportedFrom place list)[index.toNat - deviceCount.toNat]?.map
        Prod.fst := by
  induction list generalizing place deviceCount with
  | nil =>
      rfl
  | cons dd rest inductionHypothesis =>
      cases found : findKnownDevice dd with
      | none =>
          rw [supportedFrom_cons_of_none found, openLoop_cons_of_none found,
            if_neg (ne_sub_one below started)]
          exact inductionHypothesis below started
      | some dongle =>
          rw [supportedFrom_cons_of_some found, openLoop_cons_of_some found]
          by_cases reached : index = deviceCount
          · rw [if_pos reached, reached, Nat.sub_self]
            rfl
          · have succ := toNat_succ below reached
            have differ : index.toNat ≠ deviceCount.toNat :=
              fun same => reached (UInt32.toNat_inj.mp same)
            rw [if_neg reached,
              getElem?_cons_of_count below reached (place, dongle)]
            refine inductionHypothesis (by omega) (fun zero => ?_)
            rw [zero] at succ
            exact absurd succ.symm (Nat.succ_ne_zero _)

/-- The last device of a list, or else a device from before the list. -/
theorem getD_getLast?_cons
    (device : Option Dongle)
    (dd : Descriptor)
    (rest : List Descriptor) :
    ((dd :: rest).getLast?.map findKnownDevice).getD device =
      (rest.getLast?.map findKnownDevice).getD (findKnownDevice dd) := by
  cases rest with
  | nil =>
      rfl
  | cons next later =>
      rw [List.getLast?_cons_cons, List.getLast?_cons]
      rfl

/-- Without the device of the index, `device` is that of the last one in the list. -/
theorem nameLoop_eq
    {place : Nat}
    {device : Option Dongle}
    {list : List Descriptor}
    (below : deviceCount.toNat ≤ index.toNat) :
    nameLoop index deviceCount device list =
      ((supportedFrom place list)[index.toNat - deviceCount.toNat]?.map
        Prod.snd).or ((list.getLast?.map findKnownDevice).getD device) := by
  induction list generalizing place deviceCount device with
  | nil =>
      rfl
  | cons dd rest inductionHypothesis =>
      rw [getD_getLast?_cons]
      unfold nameLoop
      cases found : findKnownDevice dd with
      | none =>
          rw [supportedFrom_cons_of_none found, if_neg (by simp)]
          exact inductionHypothesis below
      | some dongle =>
          rw [supportedFrom_cons_of_some found, if_pos (by simp)]
          dsimp only
          rw [UInt32.add_sub_cancel]
          by_cases reached : index = deviceCount
          · rw [if_pos reached, reached, Nat.sub_self]
            rfl
          · have succ := toNat_succ below reached
            have differ : index.toNat ≠ deviceCount.toNat :=
              fun same => reached (UInt32.toNat_inj.mp same)
            rw [if_neg reached,
              getElem?_cons_of_count below reached (place, dongle)]
            exact inductionHypothesis (by omega)

end Loops

/-! ## The functions -/

namespace Usb

variable {usb : Usb} {index : UInt32}

/-- The first device of the list is not supported. -/
def StartsUnsupported (usb : Usb) : Prop :=
  ∃ first rest,
    usb.attached = first :: rest ∧ findKnownDevice first = none

/-- The last device of the list, if there is one, is not supported. -/
def EndsUnsupported (usb : Usb) : Prop :=
  ∀ last ∈ usb.attached.getLast?, findKnownDevice last = none

/-- The index 0xffffffff is one less than a count of zero. -/
theorem openLoop_wraps
    (starts : usb.StartsUnsupported) :
    openLoop 0xffffffff 0 0 usb.attached = some 0 := by
  rcases starts with ⟨first, rest, split, unsupported⟩
  rw [split, openLoop_cons_of_none unsupported, if_pos (by decide)]

/-- Otherwise `rtlsdr_open` comes to the device of its index. -/
theorem openLoop_attached
    (apart : ¬ (index = 0xffffffff ∧ usb.StartsUnsupported)) :
    openLoop index 0 0 usb.attached =
      (supportedFrom 0 usb.attached)[index.toNat]?.map Prod.fst := by
  by_cases last : index = 0xffffffff
  · subst last
    cases listed : usb.attached with
    | nil =>
        rfl
    | cons first rest =>
        cases found : findKnownDevice first with
        | none =>
            exact absurd ⟨rfl, first, rest, listed, found⟩ apart
        | some dongle =>
            rw [openLoop_cons_of_some found, if_neg (by decide),
              openLoop_eq (by decide) (by decide),
              supportedFrom_cons_of_some found]
            rfl
  · exact openLoop_eq (Nat.zero_le _) (fun _ => last)

theorem stringsLoop_attached :
    stringsLoop index 0 0 usb.attached =
      (supportedFrom 0 usb.attached)[index.toNat]?.map Prod.fst :=
  stringsLoop_eq (Nat.zero_le _)

theorem nameLoop_attached :
    nameLoop index 0 none usb.attached =
      ((supportedFrom 0 usb.attached)[index.toNat]?.map Prod.snd).or
        ((usb.attached.getLast?.map findKnownDevice).getD none) :=
  nameLoop_eq (Nat.zero_le _)

/-- Every known device has a name. -/
theorem name_ne_empty
    {dd : Descriptor}
    {dongle : Dongle}
    (found : findKnownDevice dd = some dongle) :
    dongle.name ≠ "" := by
  have member := List.mem_of_find?_eq_some found
  have named : ∀ known ∈ knownDevices, known.name ≠ "" := by
    decide
  exact named dongle member

section Started

variable (started : usb.init = 0)

include started

/-- `rtlsdr_open` tries to open the device of its index. -/
theorem rtlsdrOpen_opened
    (apart : ¬ (index = 0xffffffff ∧ usb.StartsUnsupported)) :
    (usb.rtlsdrOpen index).opened =
      (supportedFrom 0 usb.attached)[index.toNat]?.map Prod.fst := by
  unfold rtlsdrOpen
  rw [if_neg (by rw [started]; decide), ← openLoop_attached apart]
  cases openLoop index 0 0 usb.attached <;>
    rfl

/-- `rtlsdr_open` fails where it opens no device. -/
theorem rtlsdrOpen_result
    (notOpened : (usb.rtlsdrOpen index).opened = none) :
    (usb.rtlsdrOpen index).result = -1 := by
  unfold rtlsdrOpen at notOpened ⊢
  rw [if_neg (by rw [started]; decide)] at notOpened ⊢
  cases reached : openLoop index 0 0 usb.attached with
  | none =>
      rfl
  | some device =>
      rw [reached] at notOpened
      cases notOpened

theorem getDeviceUsbStrings_opened :
    (usb.getDeviceUsbStrings index).opened =
      (supportedFrom 0 usb.attached)[index.toNat]?.map Prod.fst := by
  unfold getDeviceUsbStrings
  rw [if_neg (by rw [started]; decide), ← stringsLoop_attached]
  cases stringsLoop index 0 0 usb.attached with
  | none =>
      rfl
  | some device =>
      dsimp only
      split <;>
        rfl

/-- A device that can be opened is read. -/
theorem getDeviceUsbStrings_read
    {device : Nat}
    (opened : (usb.getDeviceUsbStrings index).opened = some device)
    (opens : usb.openDevice device = 0) :
    (usb.getDeviceUsbStrings index).read = some device := by
  have reached := opened.symm.trans (getDeviceUsbStrings_opened started)
  rw [← stringsLoop_attached] at reached
  unfold getDeviceUsbStrings
  rw [if_neg (by rw [started]; decide), ← reached]
  dsimp only
  rw [if_pos opens]

/-- Beyond the supported devices the result is that of `libusb_init`: success. -/
theorem getDeviceUsbStrings_result
    (notOpened : (usb.getDeviceUsbStrings index).opened = none) :
    (usb.getDeviceUsbStrings index).result = 0 := by
  have reached := notOpened.symm.trans (getDeviceUsbStrings_opened started)
  rw [← stringsLoop_attached] at reached
  unfold getDeviceUsbStrings
  rw [if_neg (by rw [started]; decide), ← reached]
  exact started

theorem getDeviceName_within
    {device : Nat}
    {dongle : Dongle}
    (listed :
      (supportedFrom 0 usb.attached)[index.toNat]? = some (device, dongle)) :
    usb.getDeviceName index = dongle.name := by
  unfold getDeviceName
  rw [if_neg (by rw [started]; decide), nameLoop_attached, listed]
  rfl

/-- Beyond the supported devices the name is that of the last device in the list. -/
theorem getDeviceName_beyond
    (beyond : (supportedFrom 0 usb.attached).length ≤ index.toNat) :
    usb.getDeviceName index = "" ↔ usb.EndsUnsupported := by
  unfold getDeviceName EndsUnsupported
  rw [if_neg (by rw [started]; decide), nameLoop_attached,
    List.getElem?_eq_none beyond]
  cases usb.attached.getLast? with
  | none =>
      simp
  | some last =>
      cases found : findKnownDevice last with
      | none =>
          simp [found]
      | some dongle =>
          simp [found, name_ne_empty found]

end Started

/-- Behind an unsupported device no supported one is first. -/
theorem place_ne_zero
    (starts : usb.StartsUnsupported)
    {entry : Nat × Dongle}
    (member : entry ∈ supportedFrom 0 usb.attached) :
    entry.1 ≠ 0 := by
  rcases starts with ⟨first, rest, split, unsupported⟩
  rw [split, supportedFrom_cons_of_none unsupported] at member
  exact Nat.ne_of_gt (le_of_mem_supportedFrom member)

/--
The enumerations agree exactly for the indices of the supported devices, but for
the index 0xffffffff where an unsupported device is first in the list.
-/
theorem enumerates_iff
    (usb : Usb)
    (index : UInt32)
    (started : usb.init = 0) :
    usb.Enumerates index ↔
      index.toNat < (supportedFrom 0 usb.attached).length ∧
        ¬ (index = 0xffffffff ∧ usb.StartsUnsupported) := by
  constructor
  · intro enumerates
    have inRange : index.toNat < (supportedFrom 0 usb.attached).length := by
      by_contra outside
      rcases enumerates.beyond (Nat.not_lt.mp outside) with
        ⟨_, _, notOpened, fails, _⟩
      exact fails (getDeviceUsbStrings_result started notOpened)
    refine ⟨inRange, ?_⟩
    rintro ⟨rfl, starts⟩
    have opened :=
      (enumerates.within _ _ (List.getElem?_eq_getElem inRange)).1
    unfold rtlsdrOpen at opened
    rw [if_neg (by rw [started]; decide), openLoop_wraps starts] at opened
    exact place_ne_zero starts (List.getElem_mem inRange)
      (Option.some.inj opened).symm
  · rintro ⟨inRange, apart⟩
    constructor
    · intro device dongle listed
      have opened :
          (usb.getDeviceUsbStrings index).opened = some device := by
        rw [getDeviceUsbStrings_opened started, listed]
        rfl
      refine ⟨?_, opened, getDeviceUsbStrings_read started opened,
        getDeviceName_within started listed⟩
      rw [rtlsdrOpen_opened started apart, listed]
      rfl
    · intro beyond
      exact absurd inRange (Nat.not_lt.mpr beyond)

/-- A hub with a keyboard in front of two dongles. -/
def keyboardAndDongles : Usb where
  init := 0
  attached := [⟨0x046d, 0xc31c⟩, ⟨0x0bda, 0x2838⟩, ⟨0x0bda, 0x2832⟩]
  openDevice _ := 0
  usbStrings _ := 0
  start _ := 0

theorem enumerates_keyboardAndDongles :
    keyboardAndDongles.Enumerates 1 :=
  (enumerates_iff keyboardAndDongles 1 rfl).mpr
    ⟨by decide, fun wrapped => absurd wrapped.1 (by decide)⟩

/--
With two dongles the index 2 reads no strings without an error and has the name
of the last dongle, and the index 0xffffffff opens the keyboard.
-/
theorem not_enumerates_keyboardAndDongles :
    ¬ keyboardAndDongles.Enumerates 2 ∧
      keyboardAndDongles.getDeviceUsbStrings 2 = ⟨none, none, 0⟩ ∧
      keyboardAndDongles.getDeviceName 2 = "Generic RTL2832U" ∧
      ¬ keyboardAndDongles.Enumerates 0xffffffff ∧
      keyboardAndDongles.rtlsdrOpen 0xffffffff = ⟨some 0, none, 0⟩ := by
  have strings :
      keyboardAndDongles.getDeviceUsbStrings 2 = ⟨none, none, 0⟩ := by
    decide
  have opens :
      keyboardAndDongles.rtlsdrOpen 0xffffffff = ⟨some 0, none, 0⟩ := by
    decide
  refine ⟨fun enumerates => ?_, strings, by decide, fun enumerates => ?_, opens⟩
  · have beyond := enumerates.beyond (by decide)
    rw [strings] at beyond
    exact beyond.2.2.2.1 rfl
  · have beyond := enumerates.beyond (by decide)
    rw [opens] at beyond
    cases beyond.1

end Usb

end LibRtlSdr.RtlSdr
