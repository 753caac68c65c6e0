import LibRtlSdr.BoundedBuffer
import Mathlib.Logic.Function.Basic

namespace LibRtlSdr.RtlSdrEeprom

open BoundedBuffer

/-!
# Writing and reading the EEPROM

`rtlsdr_write_eeprom` reads each byte before it writes it and skips those that
have their value already.  It ignores whether the read succeeded, and compares
with whatever its scratch buffer then holds.
-/

abbrev Byte := UInt8

/-- The EEPROM on the I2C bus, and the outcomes of the transfers to come. -/
structure Device where
  /-- The 256 bytes. -/
  bytes : Nat → Byte
  /-- The address of the next read. -/
  pointer : Byte
  /-- Where the pointer goes when a byte is stored at an address. -/
  afterStore : Byte → Byte → Byte
  /-- The outcome of each transfer from now on: a negative result is a failure. -/
  outcome : Nat → Int

namespace Device

/-- The next transfer, with its effect if it succeeds. -/
def transfer
    (device : Device)
    (length : Int)
    (effect : Device → Device) : Int × Device :=
  let after := { device with outcome := fun later => device.outcome (later + 1) }
  if device.outcome 0 < 0 then
    (device.outcome 0, after)
  else
    (length, effect after)

/-- `rtlsdr_write_array` of one byte: the address of the next read. -/
def writeAddress (device : Device) (address : Byte) : Int × Device :=
  device.transfer 1 fun after => { after with pointer := address }

/-- `rtlsdr_write_array` of two bytes: a byte is stored at an address. -/
def writeByte (device : Device) (address byte : Byte) : Int × Device :=
  device.transfer 2 fun after =>
    { after with
      bytes := Function.update after.bytes address.toNat byte
      pointer := after.afterStore after.pointer address }

/-- `rtlsdr_read_array` of one byte into a place of memory. -/
def readByte (device : Device) (place : Byte) : Int × Byte × Device :=
  let read :=
    device.transfer 1 fun after => { after with pointer := after.pointer + 1 }
  if device.outcome 0 < 0 then
    (read.1, place, read.2)
  else
    (read.1, device.bytes device.pointer.toNat, read.2)

/--
The body of the loop of `rtlsdr_write_eeprom`: 0 to go on or the error, and the
device.  `scratch` is `cmd[1]` as the previous pass left it.
-/
def writePass
    (device : Device)
    (scratch : Byte)
    (place : Nat)
    (byte : Byte) : Int × Device :=
  let addressed := device.writeAddress (UInt8.ofNat place)
  let read := addressed.2.readByte scratch
  if read.2.1 = byte then
    (0, read.2.2)
  else
    let stored := read.2.2.writeByte (UInt8.ofNat place) byte
    if stored.1 ≠ 2 then
      (-3, stored.2)
    else
      (0, stored.2)

/-- The loop of `rtlsdr_write_eeprom`; each pass leaves its byte in `cmd[1]`. -/
def writeLoop (device : Device) (scratch : Byte) (place : Nat) :
    List Byte → Int × Device
  | [] =>
      (0, device)
  | byte :: rest =>
      let pass := device.writePass scratch place byte
      if pass.1 ≠ 0 then
        pass
      else
        writeLoop pass.2 byte (place + 1) rest

/-- `rtlsdr_write_eeprom`; `scratch` is what `cmd[1]` holds before it is set. -/
def writeEeprom
    (device : Device)
    (scratch : Byte)
    (data : List Byte)
    (offset : Byte) : Int × Device :=
  if 256 < data.length + offset.toNat then
    (-2, device)
  else
    device.writeLoop scratch offset.toNat data

/-- The loop of `rtlsdr_read_eeprom` over the places of the caller's buffer. -/
def readLoop (device : Device) (result : Int) :
    List Byte → Int × List Byte × Device
  | [] =>
      (result, [], device)
  | place :: rest =>
      let read := device.readByte place
      if read.1 < 0 then
        (-3, read.2.1 :: rest, read.2.2)
      else
        let others := readLoop read.2.2 read.1 rest
        (others.1, read.2.1 :: others.2.1, others.2.2)

/-- `rtlsdr_read_eeprom`: the result, the buffer and the device. -/
def readEeprom
    (device : Device)
    (offset : Byte)
    (buffer : List Byte) : Int × List Byte × Device :=
  if 256 < buffer.length + offset.toNat then
    (-2, buffer, device)
  else
    let addressed := device.writeAddress offset
    if addressed.1 < 0 then
      (-3, buffer, addressed.2)
    else
      addressed.2.readLoop addressed.1 buffer

/-! ## One pass of the loop -/

/-- What a pass compares with its byte, given how its first two transfers end. -/
def seen (device : Device) (scratch : Byte) (place : Nat) : Byte :=
  if device.outcome 1 < 0 then
    scratch
  else if device.outcome 0 < 0 then
    device.bytes device.pointer.toNat
  else
    device.bytes place

/--
A byte is skipped on the word of another one: it has not its value yet, its
address or its read failed, and what is compared instead happens to be equal.
-/
def Misled
    (device : Device)
    (scratch : Byte)
    (place : Nat)
    (byte : Byte) : Prop :=
  device.bytes place ≠ byte ∧
    ((device.outcome 1 < 0 ∧ scratch = byte) ∨
      (0 ≤ device.outcome 1 ∧ device.outcome 0 < 0 ∧
        device.bytes device.pointer.toNat = byte))

/-- A byte is found to differ, and the transfer that should store it fails. -/
def Cut
    (device : Device)
    (scratch : Byte)
    (place : Nat)
    (byte : Byte) : Prop :=
  device.outcome 2 < 0 ∧ device.seen scratch place ≠ byte

section Pass

variable {device : Device} {scratch byte : Byte} {place : Nat}

theorem misled_iff :
    device.Misled scratch place byte ↔
      device.bytes place ≠ byte ∧ device.seen scratch place = byte := by
  rw [Misled, seen]
  constructor
  · rintro ⟨differs, ⟨failed, same⟩ | ⟨read, failed, same⟩⟩
    · rw [if_pos failed]
      exact ⟨differs, same⟩
    · rw [if_neg (Int.not_lt.mpr read), if_pos failed]
      exact ⟨differs, same⟩
  · rintro ⟨differs, same⟩
    refine ⟨differs, ?_⟩
    split at same
    · rename_i failed
      exact .inl ⟨failed, same⟩
    · rename_i read
      split at same
      · rename_i failed
        exact .inr ⟨Int.not_lt.mp read, failed, same⟩
      · exact absurd same differs

/-- A transfer that fails stores nothing and does not report two bytes. -/
theorem writeByte_failed
    {address : Byte}
    (failed : device.outcome 0 < 0) :
    (device.writeByte address byte).1 ≠ 2 := by
  rw [writeByte, transfer]
  dsimp only
  rw [if_pos failed]
  dsimp only
  omega

/-- A transfer that succeeds stores the byte. -/
theorem writeByte_stored
    (address byte : Byte)
    (stored : ¬ device.outcome 0 < 0) :
    (device.writeByte address byte).1 = 2 ∧
      (device.writeByte address byte).2.bytes =
        Function.update device.bytes address.toNat byte := by
  rw [writeByte, transfer]
  dsimp only
  rw [if_neg stored]
  exact ⟨rfl, rfl⟩

/-- The first two transfers of a pass change no byte and bring what is compared. -/
theorem readByte_writeAddress
    (device : Device)
    (scratch : Byte)
    (inEeprom : place < 256) :
    ((device.writeAddress (UInt8.ofNat place)).2.readByte scratch).2.1 =
        device.seen scratch place ∧
      ((device.writeAddress (UInt8.ofNat place)).2.readByte
          scratch).2.2.bytes = device.bytes ∧
      ((device.writeAddress (UInt8.ofNat place)).2.readByte
          scratch).2.2.outcome = fun later => device.outcome (later + 2) := by
  have address : (UInt8.ofNat place).toNat = place :=
    UInt8.toNat_ofNat_of_lt' inEeprom
  by_cases addressFailed : device.outcome 0 < 0
  · by_cases readFailed : device.outcome 1 < 0
    · simp [writeAddress, readByte, transfer, seen, addressFailed, readFailed]
    · simp [writeAddress, readByte, transfer, seen, addressFailed, readFailed]
  · by_cases readFailed : device.outcome 1 < 0
    · simp [writeAddress, readByte, transfer, seen, addressFailed, readFailed]
    · simp [writeAddress, readByte, transfer, seen, addressFailed, readFailed,
        address]

/-- What a pass leaves of the bytes. -/
inductive Passes
    (device : Device)
    (scratch : Byte)
    (place : Nat)
    (byte : Byte)
    (pass : Int × Device) : Prop
  | cut :
      device.Cut scratch place byte →
      pass.1 = -3 →
      Passes device scratch place byte pass
  | misled :
      ¬ device.Cut scratch place byte →
      device.Misled scratch place byte →
      pass.1 = 0 →
      pass.2.bytes = device.bytes →
      Passes device scratch place byte pass
  | written :
      ¬ device.Cut scratch place byte →
      ¬ device.Misled scratch place byte →
      pass.1 = 0 →
      pass.2.bytes = blit place [byte] device.bytes →
      Passes device scratch place byte pass

/-- Storing a byte where it is already changes nothing. -/
theorem blit_singleton
    (place : Nat)
    (byte : Byte)
    (bytes : Nat → Byte) :
    blit place [byte] bytes = Function.update bytes place byte := by
  funext address
  by_cases here : address = place
  · subst here
    simp [blit]
  · rw [Function.update_of_ne here, blit_of_outside]
    rw [List.length_singleton]
    omega

/-- Every pass is cut off, misled, or leaves its byte in place. -/
theorem writePass_passes
    (device : Device)
    (scratch byte : Byte)
    (inEeprom : place < 256) :
    Passes device scratch place byte
      (device.writePass scratch place byte) := by
  rcases readByte_writeAddress device scratch inEeprom with
    ⟨compared, sameBytes, outcomes⟩
  have address : (UInt8.ofNat place).toNat = place :=
    UInt8.toNat_ofNat_of_lt' inEeprom
  rw [writePass]
  dsimp only
  rw [compared]
  by_cases equal : device.seen scratch place = byte
  · rw [if_pos equal]
    have notCut : ¬ device.Cut scratch place byte :=
      fun cut => cut.2 equal
    by_cases already : device.bytes place = byte
    · have notMisled : ¬ device.Misled scratch place byte :=
        fun misled => misled.1 already
      refine .written notCut notMisled rfl (sameBytes.trans ?_)
      rw [blit_singleton, ← already, Function.update_eq_self]
    · exact .misled notCut (misled_iff.mpr ⟨already, equal⟩) rfl sameBytes
  · rw [if_neg equal]
    have notMisled : ¬ device.Misled scratch place byte :=
      fun misled => equal (misled_iff.mp misled).2
    have third := congrFun outcomes 0
    by_cases failed : device.outcome 2 < 0
    · refine .cut ⟨failed, equal⟩ ?_
      rw [if_pos (writeByte_failed (third ▸ failed))]
    · have notCut : ¬ device.Cut scratch place byte :=
        fun cut => failed cut.1
      have stored :=
        writeByte_stored (UInt8.ofNat place) byte (third ▸ failed)
      rw [if_neg (not_not_intro stored.1)]
      refine .written notCut notMisled rfl ?_
      rw [stored.2, sameBytes, address, blit_singleton]

end Pass

/-! ## The whole call -/

/-- The loop comes to a byte at a place, in a state of the device and with a scratch byte. -/
inductive Reaches
    (goal : Device)
    (goalScratch : Byte)
    (goalPlace : Nat)
    (goalByte : Byte) :
    Device → Byte → Nat → List Byte → Prop
  | here (rest : List Byte) :
      Reaches goal goalScratch goalPlace goalByte goal goalScratch goalPlace
        (goalByte :: rest)
  | later
      {device : Device}
      {scratch byte : Byte}
      {place : Nat}
      {rest : List Byte} :
      (device.writePass scratch place byte).1 = 0 →
      Reaches goal goalScratch goalPlace goalByte
        (device.writePass scratch place byte).2 byte (place + 1) rest →
      Reaches goal goalScratch goalPlace goalByte device scratch place
        (byte :: rest)

/-- Some byte of the call is found to differ but not stored. -/
def IsCut
    (device : Device)
    (scratch : Byte)
    (place : Nat)
    (data : List Byte) : Prop :=
  ∃ at' scratch' place' byte,
    Reaches at' scratch' place' byte device scratch place data ∧
      at'.Cut scratch' place' byte

/-- Some byte of the call is skipped on the word of another one. -/
def IsMisled
    (device : Device)
    (scratch : Byte)
    (place : Nat)
    (data : List Byte) : Prop :=
  ∃ at' scratch' place' byte,
    Reaches at' scratch' place' byte device scratch place data ∧
      at'.Misled scratch' place' byte

section Loop

variable {device : Device} {scratch byte : Byte} {place : Nat} {rest : List Byte}

theorem not_isCut_nil : ¬ device.IsCut scratch place [] := by
  rintro ⟨_, _, _, _, reaches, _⟩
  cases reaches

theorem not_isMisled_nil : ¬ device.IsMisled scratch place [] := by
  rintro ⟨_, _, _, _, reaches, _⟩
  cases reaches

/-- A call is cut off at its first byte or after it. -/
theorem isCut_cons_iff :
    device.IsCut scratch place (byte :: rest) ↔
      device.Cut scratch place byte ∨
        (device.writePass scratch place byte).1 = 0 ∧
          (device.writePass scratch place byte).2.IsCut byte (place + 1)
            rest := by
  constructor
  · rintro ⟨goal, goalScratch, goalPlace, goalByte, reaches, cut⟩
    cases reaches with
    | here =>
        exact .inl cut
    | later goesOn reachesRest =>
        exact .inr ⟨goesOn, goal, goalScratch, goalPlace, goalByte,
          reachesRest, cut⟩
  · rintro (cut | ⟨goesOn, goal, goalScratch, goalPlace, goalByte,
      reaches, cut⟩)
    · exact ⟨device, scratch, place, byte, .here rest, cut⟩
    · exact ⟨goal, goalScratch, goalPlace, goalByte, .later goesOn reaches,
        cut⟩

/-- A call is misled at its first byte or after it. -/
theorem isMisled_cons_iff :
    device.IsMisled scratch place (byte :: rest) ↔
      device.Misled scratch place byte ∨
        (device.writePass scratch place byte).1 = 0 ∧
          (device.writePass scratch place byte).2.IsMisled byte (place + 1)
            rest := by
  constructor
  · rintro ⟨goal, goalScratch, goalPlace, goalByte, reaches, misled⟩
    cases reaches with
    | here =>
        exact .inl misled
    | later goesOn reachesRest =>
        exact .inr ⟨goesOn, goal, goalScratch, goalPlace, goalByte,
          reachesRest, misled⟩
  · rintro (misled | ⟨goesOn, goal, goalScratch, goalPlace, goalByte,
      reaches, misled⟩)
    · exact ⟨device, scratch, place, byte, .here rest, misled⟩
    · exact ⟨goal, goalScratch, goalPlace, goalByte, .later goesOn reaches,
        misled⟩

/-- The loop goes on after a pass that reports no error. -/
theorem writeLoop_cons
    (goesOn : (device.writePass scratch place byte).1 = 0) :
    device.writeLoop scratch place (byte :: rest) =
      (device.writePass scratch place byte).2.writeLoop byte (place + 1)
        rest := by
  rw [writeLoop, if_neg (not_not_intro goesOn)]

/-- The loop ends with a pass that reports an error. -/
theorem writeLoop_cut
    (failed : (device.writePass scratch place byte).1 = -3) :
    device.writeLoop scratch place (byte :: rest) =
      device.writePass scratch place byte := by
  have notZero : (device.writePass scratch place byte).1 ≠ 0 := by
    rw [failed]
    decide
  rw [writeLoop, if_pos notZero]

/-- The two errors exclude each other at one byte, and one of them shows. -/
theorem Passes.spec
    {pass : Int × Device}
    (passes : Passes device scratch place byte pass) :
    (pass.1 = 0 ↔ ¬ device.Cut scratch place byte) ∧
      (pass.1 = 0 ∨ pass.1 = -3) := by
  cases passes with
  | cut cut failed =>
      rw [failed]
      exact ⟨iff_of_false (by decide) (not_not_intro cut), .inr rfl⟩
  | misled notCut _ goesOn _ =>
      exact ⟨iff_of_true goesOn notCut, .inl goesOn⟩
  | written notCut _ goesOn _ =>
      exact ⟨iff_of_true goesOn notCut, .inl goesOn⟩

end Loop

/-- The loop reports success exactly if no byte is cut off. -/
theorem writeLoop_eq_zero_iff
    {device : Device}
    {scratch : Byte}
    {place : Nat}
    {data : List Byte}
    (inEeprom : place + data.length ≤ 256) :
    (device.writeLoop scratch place data).1 = 0 ↔
      ¬ device.IsCut scratch place data := by
  induction data generalizing device scratch place with
  | nil =>
      exact iff_of_true rfl not_isCut_nil
  | cons byte rest inductionHypothesis =>
      rw [List.length_cons] at inEeprom
      have spec :=
        (writePass_passes device scratch byte (by omega : place < 256)).spec
      rw [isCut_cons_iff]
      rcases spec.2 with goesOn | failed
      · rw [writeLoop_cons goesOn, inductionHypothesis (by omega)]
        have notCut := spec.1.mp goesOn
        simp [notCut, goesOn]
      · have cut : device.Cut scratch place byte := by
          by_contra notCut
          have goesOn := spec.1.mpr notCut
          rw [failed] at goesOn
          exact absurd goesOn (by decide)
        rw [writeLoop_cut failed, failed]
        exact iff_of_false (by decide) (not_not_intro (.inl cut))

/-- A loop without an error changes no byte before its place. -/
theorem writeLoop_of_before
    {device : Device}
    {scratch : Byte}
    {place address : Nat}
    {data : List Byte}
    (inEeprom : place + data.length ≤ 256)
    (succeeds : (device.writeLoop scratch place data).1 = 0)
    (before : address < place) :
    (device.writeLoop scratch place data).2.bytes address =
      device.bytes address := by
  induction data generalizing device scratch place with
  | nil =>
      rfl
  | cons byte rest inductionHypothesis =>
      rw [List.length_cons] at inEeprom
      have later :
          ∀ {next : Int × Device},
            device.writePass scratch place byte = next →
            next.1 = 0 →
            (device.writeLoop scratch place (byte :: rest)).2.bytes address =
              next.2.bytes address := by
        rintro next rfl goesOn
        rw [writeLoop_cons goesOn] at succeeds ⊢
        exact inductionHypothesis (by omega) succeeds (by omega)
      cases writePass_passes device scratch byte (by omega : place < 256) with
      | cut _ failed =>
          rw [writeLoop_cut failed, failed] at succeeds
          exact absurd succeeds (by decide)
      | misled _ _ goesOn same =>
          rw [later rfl goesOn, same]
      | written _ _ goesOn stored =>
          rw [later rfl goesOn, stored, blit_of_outside (.inl before)]

/-- Storing a list is storing its head and then its tail. -/
theorem blit_cons
    (place : Nat)
    (byte : Byte)
    (rest : List Byte)
    (bytes : Nat → Byte) :
    blit place (byte :: rest) bytes =
      blit (place + 1) rest (blit place [byte] bytes) := by
  funext address
  rcases Nat.lt_trichotomy address place with before | here | behind
  · rw [blit_of_outside (.inl before), blit_of_outside (.inl (by omega)),
      blit_of_outside (.inl before)]
  · subst here
    rw [blit_of_outside (.inl (Nat.lt_succ_self _))]
    simp [blit]
  · have distance : address - place = address - (place + 1) + 1 := by
      omega
    have kept :
        blit place [byte] bytes address = bytes address := by
      apply blit_of_outside
      rw [List.length_singleton]
      omega
    rw [blit, blit, if_pos (by omega), if_pos (by omega), distance,
      List.getElem?_cons_succ, kept]

/-- A loop without an error leaves its data in place exactly if it is not misled. -/
theorem writeLoop_bytes_iff
    {device : Device}
    {scratch : Byte}
    {place : Nat}
    {data : List Byte}
    (inEeprom : place + data.length ≤ 256)
    (succeeds : (device.writeLoop scratch place data).1 = 0) :
    (device.writeLoop scratch place data).2.bytes =
        blit place data device.bytes ↔
      ¬ device.IsMisled scratch place data := by
  induction data generalizing device scratch place with
  | nil =>
      refine iff_of_true ?_ not_isMisled_nil
      funext address
      simp [writeLoop, blit]
  | cons byte rest inductionHypothesis =>
      rw [List.length_cons] at inEeprom
      have restIn : place + 1 + rest.length ≤ 256 := by
        omega
      rw [isMisled_cons_iff]
      cases writePass_passes device scratch byte (by omega : place < 256) with
      | cut _ failed =>
          rw [writeLoop_cut failed, failed] at succeeds
          exact absurd succeeds (by decide)
      | misled _ misled goesOn same =>
          refine iff_of_false ?_ (not_not_intro (.inl misled))
          rw [writeLoop_cons goesOn] at succeeds ⊢
          intro written
          -- the byte that was skipped is not touched any more
          have kept :=
            writeLoop_of_before restIn succeeds (Nat.lt_succ_self place)
          rw [written, same, blit_cons,
            blit_of_outside (.inl (Nat.lt_succ_self place)),
            blit_singleton, Function.update_self] at kept
          exact misled.1 kept.symm
      | written _ notMisled goesOn stored =>
          rw [writeLoop_cons goesOn] at succeeds ⊢
          rw [blit_cons, ← stored, inductionHypothesis restIn succeeds]
          simp [notMisled, goesOn]

/-- No transfer fails from now on. -/
def Answers (device : Device) : Prop :=
  ∀ later, 0 ≤ device.outcome later

/-- A read that cannot fail brings the bytes from the pointer on. -/
theorem readLoop_answers
    (device : Device)
    (answers : device.Answers)
    {place : Nat}
    {buffer : List Byte}
    (inEeprom : place + buffer.length ≤ 256)
    (pointer : device.pointer = UInt8.ofNat place)
    {result : Int}
    (before : 0 ≤ result) :
    0 ≤ (device.readLoop result buffer).1 ∧
      (device.readLoop result buffer).2.1 =
        window device.bytes place buffer.length := by
  induction buffer generalizing device place result with
  | nil =>
      exact ⟨before, rfl⟩
  | cons old rest inductionHypothesis =>
      rw [List.length_cons] at inEeprom
      have succeeds : ¬ device.outcome 0 < 0 :=
        Int.not_lt.mpr (answers 0)
      have address : device.pointer.toNat = place := by
        rw [pointer]
        exact UInt8.toNat_ofNat_of_lt' (by omega : place < 2 ^ 8)
      have next : device.pointer + 1 = UInt8.ofNat (place + 1) := by
        rw [pointer, UInt8.ofNat_add]
        rfl
      have others :=
        inductionHypothesis
          { device with
            pointer := device.pointer + 1
            outcome := fun later => device.outcome (later + 1) }
          (fun later => answers (later + 1)) (by omega) next
          (by decide : (0 : Int) ≤ 1)
      have read :
          device.readByte old =
            (1, device.bytes place,
              { device with
                pointer := device.pointer + 1
                outcome := fun later => device.outcome (later + 1) }) := by
        simp [readByte, transfer, succeeds, address]
      rw [readLoop, read]
      refine ⟨others.1, ?_⟩
      have cut :
          window device.bytes place (old :: rest).length =
            device.bytes place ::
              window device.bytes (place + 1) rest.length := by
        rw [List.length_cons, Nat.add_comm, window_add]
        rfl
      rw [cut]
      exact congrArg (device.bytes place :: ·) others.2

/-- `rtlsdr_read_eeprom` without a failure brings the bytes of its range. -/
theorem readEeprom_answers
    (device : Device)
    (answers : device.Answers)
    {offset : Byte}
    {buffer : List Byte}
    (inEeprom : buffer.length + offset.toNat ≤ 256) :
    0 ≤ (device.readEeprom offset buffer).1 ∧
      (device.readEeprom offset buffer).2.1 =
        window device.bytes offset.toNat buffer.length := by
  have succeeds : ¬ device.outcome 0 < 0 :=
    Int.not_lt.mpr (answers 0)
  have addressed :
      device.writeAddress offset =
        (1,
          { device with
            pointer := offset
            outcome := fun later => device.outcome (later + 1) }) := by
    simp [writeAddress, transfer, succeeds]
  rw [readEeprom, if_neg (Nat.not_lt.mpr inEeprom), addressed]
  have sent : (0 : Int) ≤ 1 := by
    decide
  apply readLoop_answers _ (fun later => answers (later + 1))
    (Nat.add_comm buffer.length _ ▸ inEeprom)
  · exact UInt8.ofNat_toNat.symm
  · exact sent

/--
What a successful call should mean: its data are in place, all other bytes are
as before, and a read of the range without a failure brings the data.
-/
def WritesData
    (device : Device)
    (scratch : Byte)
    (data : List Byte)
    (offset : Byte) : Prop :=
  (device.writeEeprom scratch data offset).1 = 0 →
    (device.writeEeprom scratch data offset).2.bytes =
        blit offset.toNat data device.bytes ∧
      ∀ (outcome : Nat → Int) (buffer : List Byte),
        (∀ later, 0 ≤ outcome later) →
        buffer.length = data.length →
        let read :=
          { (device.writeEeprom scratch data offset).2 with
            outcome := outcome }.readEeprom offset buffer
        0 ≤ read.1 ∧ read.2.1 = data

/--
A call that reports success has written its data exactly if no byte was skipped
on the word of another one, or if the call does not succeed because a byte that
was found to differ was not stored.
-/
theorem writesData_iff
    (device : Device)
    (scratch : Byte)
    (data : List Byte)
    (offset : Byte)
    (inEeprom : data.length + offset.toNat ≤ 256) :
    device.WritesData scratch data offset ↔
      device.IsCut scratch offset.toNat data ∨
        ¬ device.IsMisled scratch offset.toNat data := by
  have range : offset.toNat + data.length ≤ 256 := by
    omega
  have written :
      device.writeEeprom scratch data offset =
        device.writeLoop scratch offset.toNat data := by
    rw [writeEeprom, if_neg (Nat.not_lt.mpr inEeprom)]
  rw [WritesData, written, writeLoop_eq_zero_iff range]
  by_cases cut : device.IsCut scratch offset.toNat data
  · exact iff_of_true (fun notCut => absurd cut notCut) (.inl cut)
  · have succeeds := (writeLoop_eq_zero_iff range).mpr cut
    have bytes := writeLoop_bytes_iff range succeeds
    constructor
    · intro promise
      exact .inr (bytes.mp (promise cut).1)
    · rintro (isCut | notMisled) _
      · exact absurd isCut cut
      · have inPlace := bytes.mpr notMisled
        refine ⟨inPlace, ?_⟩
        intro outcome buffer answers length
        have read :=
          readEeprom_answers
            { (device.writeLoop scratch offset.toNat data).2 with
              outcome := outcome }
            answers (length.symm ▸ inEeprom)
        refine ⟨read.1, read.2.trans ?_⟩
        rw [length]
        exact inPlace ▸ window_blit_self offset.toNat data device.bytes

/-- An erased EEPROM of which the transfers of one number fail. -/
def erased (failing : Nat) : Device where
  bytes := fun _ => 0xff
  pointer := 0
  afterStore := fun _ address => address + 1
  outcome := fun number => if number = failing then -1 else 1

/-- Two different bytes arrive although the second read fails. -/
theorem writesData_iff_erased :
    (erased 4).WritesData 0 [1, 2] 0x10 := by
  have inEeprom : [(1 : Byte), 2].length + (0x10 : Byte).toNat ≤ 256 := by
    decide
  apply (writesData_iff (erased 4) 0 [1, 2] 0x10 inEeprom).mpr
  right
  rw [isMisled_cons_iff, isMisled_cons_iff]
  have noneLeft := fun device scratch place =>
    @not_isMisled_nil device scratch place
  simp [noneLeft, Misled, erased, writePass, writeAddress, readByte, writeByte,
    transfer]

/-- Two equal bytes: the second read fails, and the second byte is not written. -/
theorem writesData_equal_bytes :
    ¬ ∀ (device : Device) (scratch : Byte) (data : List Byte) (offset : Byte),
      data.length + offset.toNat ≤ 256 →
      device.WritesData scratch data offset := by
  intro claimed
  have promise := claimed (erased 4) 0 [1, 1] 0x10 (by decide)
  have bytes := (promise (by decide)).1
  have second := congrFun bytes 0x11
  exact absurd second (by decide)

end Device

end LibRtlSdr.RtlSdrEeprom
