import LibRtlSdr.RtlSdrEeprom

namespace LibRtlSdr.RtlSdrEeprom

open BoundedBuffer

/-!
# The EEPROM after reads and writes

Whatever the transfers do, a read of the EEPROM changes none of its bytes, and a write
leaves each of them as it was or as it was to be.  If no transfer fails, both do what
their callers expect, and the next call meets a device that answers as well.
-/

namespace Device

/-! ## What transfers keep -/

/-- Transfers only use up the outcomes in front. -/
theorem Answers.later
    {device : Device}
    (answers : device.Answers)
    {other : Device}
    (used : ∃ count, other.outcome = fun later => device.outcome (later + count)) :
    other.Answers := by
  obtain ⟨count, outcomes⟩ := used
  intro later
  rw [outcomes]
  exact answers (later + count)

theorem readByte_kept
    (device : Device)
    (place : Byte) :
    (device.readByte place).2.2.bytes = device.bytes ∧
      (device.readByte place).2.2.outcome = fun later => device.outcome (later + 1) := by
  unfold readByte transfer
  dsimp only
  split_ifs <;> exact ⟨rfl, rfl⟩

theorem writeAddress_kept
    (device : Device)
    (address : Byte) :
    (device.writeAddress address).2.bytes = device.bytes ∧
      (device.writeAddress address).2.outcome =
        fun later => device.outcome (later + 1) := by
  unfold writeAddress transfer
  dsimp only
  split_ifs <;> exact ⟨rfl, rfl⟩

theorem writeByte_kept
    (device : Device)
    (address byte : Byte) :
    ((device.writeByte address byte).2.bytes = device.bytes ∨
        (device.writeByte address byte).2.bytes =
          Function.update device.bytes address.toNat byte) ∧
      (device.writeByte address byte).2.outcome =
        fun later => device.outcome (later + 1) := by
  unfold writeByte transfer
  dsimp only
  split_ifs
  · exact ⟨.inl rfl, rfl⟩
  · exact ⟨.inr rfl, rfl⟩

/-- A byte that is read is the one under the pointer, which then moves on. -/
theorem readByte_read
    {device : Device}
    {place : Byte}
    (read : ¬ (device.readByte place).1 < 0) :
    (device.readByte place).1 = 1 ∧
      (device.readByte place).2.1 = device.bytes device.pointer.toNat ∧
      (device.readByte place).2.2.pointer = device.pointer + 1 := by
  unfold readByte transfer at read ⊢
  dsimp only at read ⊢
  by_cases failed : device.outcome 0 < 0
  · simp only [failed, if_true, not_true_eq_false] at read
  · simp [failed]

/-- A read changes no byte, and either reports its failure or brings its range. -/
theorem readLoop_spec
    (device : Device)
    {place : Nat}
    {buffer : List Byte}
    (inEeprom : place + buffer.length ≤ 256)
    (pointer : device.pointer = UInt8.ofNat place)
    (result : Int) :
    (device.readLoop result buffer).2.2.bytes = device.bytes ∧
      ((device.readLoop result buffer).1 = -3 ∨
        (device.readLoop result buffer).1 = (if buffer = [] then result else 1) ∧
          (device.readLoop result buffer).2.1 =
            window device.bytes place buffer.length) := by
  induction buffer generalizing device place result with
  | nil =>
      exact ⟨rfl, .inr ⟨rfl, rfl⟩⟩
  | cons old rest inductionHypothesis =>
      rw [List.length_cons] at inEeprom
      have kept := (device.readByte_kept old).1
      rw [readLoop]
      dsimp only
      by_cases failed : (device.readByte old).1 < 0
      · rw [if_pos failed]
        exact ⟨kept, .inl rfl⟩
      · rw [if_neg failed]
        dsimp only
        obtain ⟨one, byte, moved⟩ := readByte_read failed
        have address : device.pointer.toNat = place := by
          rw [pointer]
          exact UInt8.toNat_ofNat_of_lt' (by omega : place < 2 ^ 8)
        have next : (device.readByte old).2.2.pointer = UInt8.ofNat (place + 1) := by
          rw [moved, pointer, UInt8.ofNat_add]
          rfl
        obtain ⟨keptRest, results⟩ :=
          inductionHypothesis (device.readByte old).2.2 (by omega) next
            (device.readByte old).1
        refine ⟨keptRest.trans kept, ?_⟩
        rcases results with failedLater | ⟨success, read⟩
        · exact .inl failedLater
        · right
          refine ⟨?_, ?_⟩
          · rw [success, one, ite_self, if_neg (List.cons_ne_nil old rest)]
          · rw [read, kept, byte, address, List.length_cons, Nat.add_comm rest.length 1,
              window_add]
            rfl

/-- A read of the whole EEPROM, whatever the transfers do. -/
theorem readEeprom_whole
    (device : Device)
    {buffer : List Byte}
    (whole : buffer.length = 256) :
    (device.readEeprom 0 buffer).2.2.bytes = device.bytes ∧
      ((device.readEeprom 0 buffer).1 = -3 ∨
        (device.readEeprom 0 buffer).1 = 1 ∧
          (device.readEeprom 0 buffer).2.1 = window device.bytes 0 256) := by
  have fits : ¬ 256 < buffer.length + (0 : Byte).toNat := by
    rw [whole]
    decide
  have notEmpty : buffer ≠ [] := by
    rintro rfl
    exact absurd whole (by decide)
  have kept := (device.writeAddress_kept 0).1
  rw [readEeprom, if_neg fits]
  dsimp only
  split_ifs with failed
  · exact ⟨kept, .inl rfl⟩
  · have pointer : (device.writeAddress 0).2.pointer = UInt8.ofNat 0 := by
      unfold writeAddress transfer at failed ⊢
      dsimp only at failed ⊢
      split_ifs at failed ⊢
      · contradiction
      · rfl
    obtain ⟨keptRest, results⟩ :=
      @readLoop_spec (device.writeAddress 0).2 0 buffer (by omega) pointer
        (device.writeAddress 0).1
    refine ⟨keptRest.trans kept, ?_⟩
    rw [if_neg notEmpty, whole, kept] at results
    exact results

/-- The outcomes left after a read. -/
theorem readLoop_outcome
    (device : Device)
    (result : Int)
    (buffer : List Byte) :
    ∃ count,
      (device.readLoop result buffer).2.2.outcome =
        fun later => device.outcome (later + count) := by
  induction buffer generalizing device result with
  | nil =>
      exact ⟨0, rfl⟩
  | cons old rest inductionHypothesis =>
      have first := (device.readByte_kept old).2
      rw [readLoop]
      dsimp only
      split_ifs
      · exact ⟨1, first⟩
      · obtain ⟨count, others⟩ :=
          inductionHypothesis (device.readByte old).2.2 (device.readByte old).1
        refine ⟨count + 1, ?_⟩
        rw [others, first]
        rfl

theorem readEeprom_outcome
    (device : Device)
    (offset : Byte)
    (buffer : List Byte) :
    ∃ count,
      (device.readEeprom offset buffer).2.2.outcome =
        fun later => device.outcome (later + count) := by
  have first := (device.writeAddress_kept offset).2
  unfold readEeprom
  dsimp only
  split_ifs
  · exact ⟨0, rfl⟩
  · exact ⟨1, first⟩
  · obtain ⟨count, others⟩ :=
      readLoop_outcome (device.writeAddress offset).2 (device.writeAddress offset).1 buffer
    refine ⟨count + 1, ?_⟩
    rw [others, first]
    rfl

/-! ## What a write leaves of the bytes -/

/-- A pass changes at most the byte at its place, to the value that it was given. -/
theorem writePass_kept
    (device : Device)
    (scratch byte : Byte)
    {place : Nat}
    (inEeprom : place < 256) :
    ((device.writePass scratch place byte).2.bytes = device.bytes ∨
        (device.writePass scratch place byte).2.bytes =
          Function.update device.bytes place byte) ∧
      ∃ count,
        (device.writePass scratch place byte).2.outcome =
          fun later => device.outcome (later + count) := by
  obtain ⟨-, sameBytes, outcomes⟩ := readByte_writeAddress device scratch inEeprom
  have address : (UInt8.ofNat place).toNat = place :=
    UInt8.toNat_ofNat_of_lt' inEeprom
  obtain ⟨stored, storedOutcomes⟩ :=
    writeByte_kept
      ((device.writeAddress (UInt8.ofNat place)).2.readByte scratch).2.2
      (UInt8.ofNat place) byte
  rw [sameBytes, address] at stored
  rw [outcomes] at storedOutcomes
  unfold writePass
  dsimp only
  split_ifs
  · exact ⟨.inl sameBytes, 2, outcomes⟩
  · exact ⟨stored, 3, storedOutcomes⟩
  · exact ⟨stored, 3, storedOutcomes⟩

/-- Whatever the transfers do, a byte is afterwards as before or as it was to be. -/
theorem writeLoop_bytes
    (device : Device)
    (scratch : Byte)
    {place : Nat}
    {data : List Byte}
    (inEeprom : place + data.length ≤ 256)
    (address : Nat) :
    (device.writeLoop scratch place data).2.bytes address = device.bytes address ∨
      place ≤ address ∧
        data[address - place]? =
          some ((device.writeLoop scratch place data).2.bytes address) := by
  induction data generalizing device scratch place with
  | nil =>
      exact .inl rfl
  | cons byte rest inductionHypothesis =>
      rw [List.length_cons] at inEeprom
      have first :
          (device.writePass scratch place byte).2.bytes address = device.bytes address ∨
            address = place ∧
              (device.writePass scratch place byte).2.bytes address = byte := by
        rcases (device.writePass_kept scratch byte (by omega : place < 256)).1 with
          kept | stored
        · exact .inl (congrFun kept address)
        · rw [stored]
          by_cases here : address = place
          · subst here
            exact .inr ⟨rfl, Function.update_self address byte device.bytes⟩
          · exact .inl (Function.update_of_ne here byte device.bytes)
      have passed :
          (device.writePass scratch place byte).2.bytes address = device.bytes address ∨
            place ≤ address ∧
              (byte :: rest)[address - place]? =
                some ((device.writePass scratch place byte).2.bytes address) := by
        rcases first with kept | ⟨rfl, stored⟩
        · exact .inl kept
        · right
          rw [stored, Nat.sub_self]
          exact ⟨Nat.le_refl address, rfl⟩
      rw [writeLoop]
      split_ifs with goesOn
      · exact passed
      · have restIn : place + 1 + rest.length ≤ 256 := by
          omega
        rcases inductionHypothesis (device.writePass scratch place byte).2 byte restIn with
          same | ⟨behind, stored⟩
        · rw [same]
          exact passed
        · right
          have index : address - place = address - (place + 1) + 1 := by
            omega
          rw [index, List.getElem?_cons_succ]
          exact ⟨by omega, stored⟩

/-- A transfer that does not fail is neither cut off nor misled. -/
theorem Answers.writePass
    {device : Device}
    (answers : device.Answers)
    (scratch byte : Byte)
    {place : Nat}
    (inEeprom : place < 256) :
    (device.writePass scratch place byte).1 = 0 ∧
      (device.writePass scratch place byte).2.bytes = blit place [byte] device.bytes := by
  cases writePass_passes device scratch byte inEeprom with
  | cut cut _ =>
      exact absurd cut.1 (Int.not_lt.mpr (answers 2))
  | misled _ misled _ _ =>
      rcases misled.2 with ⟨failed, _⟩ | ⟨_, failed, _⟩
      · exact absurd failed (Int.not_lt.mpr (answers 1))
      · exact absurd failed (Int.not_lt.mpr (answers 0))
  | written _ _ goesOn stored =>
      exact ⟨goesOn, stored⟩

/-- A device that answers takes the whole data. -/
theorem Answers.writeLoop
    {device : Device}
    (answers : device.Answers)
    (scratch : Byte)
    {place : Nat}
    {data : List Byte}
    (inEeprom : place + data.length ≤ 256) :
    (device.writeLoop scratch place data).1 = 0 ∧
      (device.writeLoop scratch place data).2.bytes = blit place data device.bytes := by
  induction data generalizing device scratch place with
  | nil =>
      exact ⟨rfl, (blit_nil place device.bytes).symm⟩
  | cons byte rest inductionHypothesis =>
      rw [List.length_cons] at inEeprom
      have inPlace : place < 256 := by
        omega
      obtain ⟨goesOn, stored⟩ := answers.writePass scratch byte inPlace
      have later := answers.later (device.writePass_kept scratch byte inPlace).2
      have restIn : place + 1 + rest.length ≤ 256 := by
        omega
      obtain ⟨succeeds, written⟩ := inductionHypothesis later byte restIn
      rw [writeLoop_cons goesOn]
      refine ⟨succeeds, ?_⟩
      rw [written, stored, blit_cons place byte rest]

/-- `rtlsdr_write_eeprom` from the first byte on. -/
theorem writeEeprom_zero
    (device : Device)
    (scratch : Byte)
    {data : List Byte}
    (inEeprom : data.length ≤ 256) :
    device.writeEeprom scratch data 0 = device.writeLoop scratch 0 data := by
  rw [writeEeprom, if_neg (by simpa using inEeprom)]
  rfl

/-- A read that cannot fail reports none and leaves a device that answers. -/
theorem Answers.readEeprom
    {device : Device}
    (answers : device.Answers)
    {buffer : List Byte}
    (whole : buffer.length = 256) :
    (device.readEeprom 0 buffer).1 = 1 ∧ (device.readEeprom 0 buffer).2.2.Answers := by
  have offset : (0 : Byte).toNat = 0 := rfl
  refine ⟨?_, answers.later (device.readEeprom_outcome 0 buffer)⟩
  have succeeds := (readEeprom_answers device answers
    (by rw [whole, offset] : buffer.length + (0 : Byte).toNat ≤ 256)).1
  rcases (device.readEeprom_whole whole).2 with failed | ⟨one, _⟩
  · rw [failed] at succeeds
    exact absurd succeeds (by decide)
  · exact one

end Device

end LibRtlSdr.RtlSdrEeprom
