import LibRtlSdr.RtlEepromTool

namespace LibRtlSdr.RtlEeprom

open BoundedBuffer
open RtlSdrEeprom (Device)

/-!
# Configurations that `rtl_eeprom` shows

Seen through the reader of images, an invocation of the program keeps one configuration
or replaces it by its proposal.  Of a sequence of invocations this view foretells what
each of them shows, although only the bytes of the stick connect them.
-/

/-! ## The view of a user -/

instance (pos : Nat) (str : CString) : Decidable (HasRoom pos str) :=
  inferInstanceAs (Decidable (_ ∨ _))

instance (conf : Config) : Decidable (HasRooms conf) :=
  inferInstanceAs (Decidable (∀ descriptor ∈ descriptors conf, HasRoom _ _))

/-- The image of a file. -/
def fileImage (content : List Byte) : Image :=
  fun address => content.getD address 0

/-- The configuration that an invocation proposes in place of the current one. -/
def Invocation.proposal (run : Invocation) (conf : Config) : Option Config :=
  if run.NoFile then
    none
  else if ¬ run.options.change then
    none
  else if run.options.flashFile then
    run.file.map fun content => parseEepromToConf (fileImage content)
  else if HasRooms (newConfig run.options conf) then
    some (newConfig run.options conf)
  else
    none

/-- The configuration behind an invocation. -/
def Invocation.after (run : Invocation) (conf : Config) : Config :=
  if run.Confirmed then
    (run.proposal conf).getD conf
  else
    conf

/-- What an invocation reports: its exit status, and the configurations that it shows. -/
structure Report where
  status : Int
  current : Config
  proposed : Option Config

/-- An invocation without an accepted and confirmed proposal ends with the status 1. -/
def Invocation.report (run : Invocation) (conf : Config) : Report where
  status := if run.Confirmed ∧ (run.proposal conf).isSome then 0 else 1
  current := conf
  proposed := run.proposal conf

/-- The reports of a sequence, each on the configuration that the ones before it left. -/
def reports (conf : Config) : List Invocation → List Report
  | [] =>
      []
  | run :: rest =>
      run.report conf :: reports (run.after conf) rest

/-- No transfer fails, and a file to be written is an image of the whole EEPROM. -/
structure Invocation.Proper (run : Invocation) : Prop where
  answers : ∀ later, 0 ≤ run.outcome later
  image :
    run.options.flashFile →
      ∀ content, run.file = some content →
        eepromSize ≤ content.length ∧ EndsInImage (fileImage content)

/-- The option `-w` names a file as well. -/
theorem flashFile_filename
    (optv : List ToolOption)
    (flash : (toolOptions optv).flashFile = true) :
    (toolOptions optv).filename = true := by
  have kept :
      ∀ options : ToolOptions,
        (options.flashFile = true → options.filename = true) →
        (optv.foldl ToolOptions.take options).flashFile = true →
        (optv.foldl ToolOptions.take options).filename = true := by
    clear flash
    induction optv with
    | nil =>
        exact fun _ named => named
    | cons option rest inductionHypothesis =>
        intro options named
        apply inductionHypothesis
        cases option <;> simp_all [ToolOptions.take]
  exact kept _ (by simp) flash

namespace Invocation

variable {run : Invocation}

/-- The image that is to be written is that of the file or one of the writer. -/
theorem newImage_cases
    {buf image : Image}
    (new : run.newImage buf = some image) :
    run.options.flashFile = true ∧ ¬ run.NoFile ∧ image = run.freadFile buf ∨
      run.options.flashFile = false ∧
        HasRooms (newConfig run.options (parseEepromToConf buf)) ∧
        image =
          (genEepromFromConf (newConfig run.options (parseEepromToConf buf)) buf).2 := by
  unfold newImage at new
  dsimp only at new
  split_ifs at new with noFile unchanged flash refused
  · exact .inl ⟨flash, noFile, (Option.some.inj new).symm⟩
  · have accepted := Int.not_lt.mp refused
    rw [genEepromFromConf_accepts_iff] at accepted
    exact .inr ⟨by simpa using flash, accepted, (Option.some.inj new).symm⟩

/-- The image of a whole file. -/
theorem freadFile_same
    {content : List Byte}
    (opened : run.file = some content)
    (whole : eepromSize ≤ content.length)
    (buf : Image) :
    ∀ address, address < eepromSize →
      run.freadFile buf address = fileImage content address := by
  intro address inside
  unfold freadFile fileImage blit
  rw [opened, Option.getD_some, if_pos (Nat.zero_le address), Nat.sub_zero,
    List.getElem?_take_of_lt inside, List.getD_eq_getElem?_getD,
    List.getElem?_eq_getElem (by omega)]
  rfl

/-- A file to be written that is opened. -/
theorem exists_file
    (flash : run.options.flashFile = true)
    (opens : ¬ run.NoFile) :
    ∃ content, run.file = some content := by
  apply Option.ne_none_iff_exists'.mp
  intro noFile
  exact opens ⟨flashFile_filename run.optv flash, noFile⟩

/-- What is read from the new image is the proposal. -/
theorem newImage_proposal
    (proper : run.Proper)
    (buf : Image) :
    (run.newImage buf).map parseEepromToConf = run.proposal (parseEepromToConf buf) := by
  unfold newImage proposal
  by_cases noFile : run.NoFile
  · rw [if_pos noFile, if_pos noFile]
    rfl
  rw [if_neg noFile, if_neg noFile]
  by_cases unchanged : ¬ run.options.change
  · rw [if_pos unchanged, if_pos unchanged]
    rfl
  rw [if_neg unchanged, if_neg unchanged]
  by_cases flash : run.options.flashFile = true
  · obtain ⟨content, opened⟩ := exists_file flash noFile
    obtain ⟨whole, ends⟩ := proper.image flash content opened
    rw [if_pos flash, if_pos flash, opened, Option.map_some, Option.map_some,
      (parseEepromToConf_congr ends (freadFile_same opened whole buf)).1]
  rw [if_neg flash, if_neg flash]
  dsimp only
  have accepted :=
    genEepromFromConf_accepts_iff (newConfig run.options (parseEepromToConf buf)) buf
  by_cases rooms : HasRooms (newConfig run.options (parseEepromToConf buf))
  · have flags := newConfig_hasFlags (parseEepromToConf_hasFlags buf) run.options
    rw [if_neg (Int.not_lt.mpr (accepted.mpr rooms)), if_pos rooms, Option.map_some,
      (genEepromFromConf_carries rooms buf).parse flags]
  · rw [if_pos (Int.not_le.mp (rooms ∘ accepted.mp)), if_neg rooms]
    rfl

/-- The bytes that are written are enough of the new image. -/
theorem newImage_written
    (proper : run.Proper)
    {buf image : Image}
    (new : run.newImage buf = some image)
    (bytes : Nat → Byte) :
    parseEepromToConf (blit 0 (window image 0 run.writeLength) bytes) =
        parseEepromToConf image ∧
      EndsInImage (blit 0 (window image 0 run.writeLength) bytes) := by
  have same :
      ∀ address, address < run.writeLength →
        blit 0 (window image 0 run.writeLength) bytes address = image address :=
    fun address below => blit_window_of_inside (by omega) image bytes
  rcases newImage_cases new with ⟨flash, opens, rfl⟩ | ⟨noFlash, rooms, rfl⟩
  · have length : run.writeLength = eepromSize := by
      unfold writeLength
      rw [if_pos flash]
    rw [length] at same ⊢
    obtain ⟨content, opened⟩ := exists_file flash opens
    obtain ⟨whole, ends⟩ := proper.image flash content opened
    have file := freadFile_same opened whole buf
    have image := parseEepromToConf_congr ends file
    have written :=
      parseEepromToConf_congr ends
        fun address inside => (same address inside).trans (file address inside)
    exact ⟨written.1.trans image.1.symm, written.2⟩
  · have length : run.writeLength = 128 := by
      unfold writeLength
      rw [if_neg (by simp [noFlash])]
    rw [length] at same ⊢
    have flags := newConfig_hasFlags (parseEepromToConf_hasFlags buf) run.options
    have image := genEepromFromConf_carries rooms buf
    have written := image.congr rooms same
    exact ⟨(written.parse flags).trans (image.parse flags).symm,
      written.endsInImage rooms⟩

/-- `buf` behind a read of the whole EEPROM. -/
def readBuf (run : Invocation) (bytes : Nat → Byte) : Image :=
  blit 0 (window bytes 0 eepromSize) run.stack

theorem writeLength_le (run : Invocation) : run.writeLength ≤ 256 := by
  unfold writeLength eepromSize
  split_ifs <;> decide

/-- `buf` holds the EEPROM. -/
theorem readBuf_same (run : Invocation) (bytes : Nat → Byte) :
    ∀ address, address < eepromSize → run.readBuf bytes address = bytes address :=
  fun address inside => blit_window_of_inside (by omega) bytes run.stack

end Invocation

/-- The read of the whole EEPROM at the beginning of an invocation. -/
theorem Invocation.firstRead
    (run : Invocation)
    (bytes : Nat → Byte) :
    let read := (run.plugged bytes).readEeprom 0 (window run.stack 0 eepromSize)
    read.2.2.bytes = bytes ∧
      (read.1 = -3 ∨ read.1 = 1 ∧ read.2.1 = window bytes 0 eepromSize) :=
  (run.plugged bytes).readEeprom_whole (length_window run.stack 0 eepromSize)

/-- What a program that is not let down by a transfer shows, stores and reports. -/
theorem rtlEeprom_answers
    {run : Invocation}
    {bytes : Nat → Byte}
    (answers : ∀ later, 0 ≤ run.outcome later) :
    rtlEeprom run bytes =
      match run.newImage (run.readBuf bytes) with
      | none =>
          ⟨1, [parseEepromToConf (run.readBuf bytes)], run.dump (run.readBuf bytes), bytes⟩
      | some image =>
          if run.Confirmed then
            ⟨0, [parseEepromToConf (run.readBuf bytes), parseEepromToConf image],
              run.dump (run.readBuf bytes), blit 0 (window image 0 run.writeLength) bytes⟩
          else
            ⟨1, [parseEepromToConf (run.readBuf bytes), parseEepromToConf image],
              run.dump (run.readBuf bytes), bytes⟩ := by
  have whole : (window run.stack 0 eepromSize).length = 256 :=
    length_window run.stack 0 eepromSize
  have plugged : (run.plugged bytes).Answers := answers
  obtain ⟨one, later⟩ := plugged.readEeprom whole
  obtain ⟨kept, results⟩ := run.firstRead bytes
  have read :
      ((run.plugged bytes).readEeprom 0 (window run.stack 0 eepromSize)).2.1 =
        window bytes 0 eepromSize := by
    rcases results with failed | ⟨_, read⟩
    · rw [one] at failed
      exact absurd failed (by decide)
    · exact read
  rw [rtlEeprom]
  dsimp only
  rw [one, read, kept, if_neg (by decide)]
  change (match run.newImage (run.readBuf bytes) with | none => _ | some image => _) = _
  rcases run.newImage (run.readBuf bytes) with _ | image
  · rfl
  · dsimp only
    have fits : (window image 0 run.writeLength).length ≤ 256 := by
      rw [length_window]
      exact run.writeLength_le
    obtain ⟨success, written⟩ :=
      later.writeLoop run.scratch (by simpa using fits :
        0 + (window image 0 run.writeLength).length ≤ 256)
    rw [Device.writeEeprom_zero _ _ fits, success, written, kept]
    rfl

/-- An invocation has the status and shows the configurations of a report. -/
structure ToolRun.Gives (result : ToolRun) (report : Report) : Prop where
  status : result.status = report.status
  shown : result.shown = report.current :: report.proposed.toList

/-- What a configuration becomes over a sequence of invocations. -/
def configAfter (conf : Config) (runs : List Invocation) : Config :=
  runs.foldl (fun current run => run.after current) conf

/-- One invocation, seen through the configuration in the EEPROM. -/
theorem rtlEeprom_step
    {run : Invocation}
    (proper : run.Proper)
    {bytes : Nat → Byte}
    (ends : EndsInImage bytes) :
    (rtlEeprom run bytes).Gives (run.report (parseEepromToConf bytes)) ∧
      parseEepromToConf (rtlEeprom run bytes).bytes =
        run.after (parseEepromToConf bytes) ∧
      EndsInImage (rtlEeprom run bytes).bytes := by
  have current :=
    (parseEepromToConf_congr ends (run.readBuf_same bytes)).1
  have proposed := Invocation.newImage_proposal proper (run.readBuf bytes)
  have written := @Invocation.newImage_written run proper (run.readBuf bytes)
  rw [current] at proposed
  rw [rtlEeprom_answers proper.answers, current, Invocation.after]
  rcases new : run.newImage (run.readBuf bytes) with _ | image
  · rw [new, Option.map_none] at proposed
    refine ⟨⟨?_, ?_⟩, ?_, ends⟩
    · simp [Invocation.report, ← proposed]
    · simp [Invocation.report, ← proposed]
    · simp [← proposed]
  · rw [new, Option.map_some] at proposed
    dsimp only
    by_cases confirmed : run.Confirmed
    · obtain ⟨parsed, endsAfter⟩ := written new bytes
      rw [if_pos confirmed, if_pos confirmed]
      refine ⟨⟨?_, ?_⟩, ?_, endsAfter⟩
      · simp [Invocation.report, ← proposed, confirmed]
      · simp [Invocation.report, ← proposed]
      · rw [← proposed]
        exact parsed
    · rw [if_neg confirmed, if_neg confirmed]
      refine ⟨⟨?_, ?_⟩, rfl, ends⟩
      · simp [Invocation.report, confirmed]
      · simp [Invocation.report, ← proposed]

/-- Only a file reaches the upper half of the EEPROM. -/
theorem rtlEeprom_upper
    {run : Invocation}
    (answers : ∀ later, 0 ≤ run.outcome later)
    (noFlash : run.options.flashFile = false)
    (bytes : Nat → Byte)
    {address : Nat}
    (upper : 128 ≤ address) :
    (rtlEeprom run bytes).bytes address = bytes address := by
  have length : run.writeLength = 128 := by
    unfold Invocation.writeLength
    rw [if_neg (by simp [noFlash])]
  rw [rtlEeprom_answers answers]
  rcases run.newImage (run.readBuf bytes) with _ | image
  · rfl
  · dsimp only
    split_ifs
    · have behind : 0 + (window image 0 run.writeLength).length ≤ address := by
        rw [length_window, length]
        omega
      exact blit_of_outside (.inr behind) bytes
    · rfl

/-- An invocation with these options and this answer, in which no transfer fails. -/
def invoked (optv : List ToolOption) (answer : Byte) : Invocation where
  optv := optv
  file := none
  answer := answer
  stack := blankImage
  scratch := 0
  pointer := 0
  afterStore := fun _ address => address + 1
  outcome := fun _ => 1

theorem invoked_proper
    (optv : List ToolOption)
    (answer : Byte) :
    (invoked optv answer).Proper :=
  ⟨fun _ => (by decide : (0 : Int) ≤ 1), fun _ _ opened => nomatch opened⟩

/-- An invocation was confirmed, and a byte is that of the image which it has shown. -/
def Agreed
    (run : Invocation)
    (bytes : Nat → Byte)
    (address : Nat)
    (byte : Byte) : Prop :=
  run.Confirmed ∧ address < run.writeLength ∧
    ∃ image,
      run.newImage (run.readBuf bytes) = some image ∧
        parseEepromToConf image ∈ (rtlEeprom run bytes).shown ∧ byte = image address

/-- An invocation leaves each byte as it was, or as the user has agreed. -/
theorem rtlEeprom_agreed
    (run : Invocation)
    (bytes : Nat → Byte)
    (address : Nat) :
    (rtlEeprom run bytes).bytes address = bytes address ∨
      Agreed run bytes address ((rtlEeprom run bytes).bytes address) := by
  obtain ⟨kept, results⟩ := run.firstRead bytes
  unfold Agreed
  rw [rtlEeprom]
  dsimp only
  rcases results with failed | ⟨one, read⟩
  · rw [failed, if_pos (by decide), kept]
    exact .inl rfl
  · have buf : blit 0 (window bytes 0 eepromSize) run.stack = run.readBuf bytes := rfl
    rw [one, read, kept, if_neg (by decide), buf]
    rcases run.newImage (run.readBuf bytes) with _ | image
    · exact .inl rfl
    · dsimp only
      split_ifs with confirmed
      · have fits : (window image 0 run.writeLength).length ≤ 256 := by
          rw [length_window]
          exact run.writeLength_le
        rw [Device.writeEeprom_zero _ _ fits]
        rcases Device.writeLoop_bytes
            ((run.plugged bytes).readEeprom 0 (window run.stack 0 eepromSize)).2.2
            run.scratch (by simpa using fits :
              0 + (window image 0 run.writeLength).length ≤ 256) address with
          same | ⟨_, stored⟩
        · rw [kept] at same
          exact .inl same
        · right
          rw [Nat.sub_zero, window, List.getElem?_map] at stored
          obtain ⟨place, found, byte⟩ := Option.map_eq_some_iff.mp stored
          rw [List.getElem?_eq_some_iff] at found
          obtain ⟨below, isPlace⟩ := found
          rw [List.length_range'] at below
          rw [List.getElem_range', Nat.zero_add, Nat.one_mul] at isPlace
          subst isPlace
          exact ⟨confirmed, below, image, rfl, by simp, byte.symm⟩
      · exact .inl rfl

/--
Over any sequence of invocations, whichever transfers fail, a byte of the EEPROM is the
one of the beginning, or it stands in an image that some invocation has shown before its
user agreed to write it.
-/
theorem rtlEeproms_agreed
    (bytes : Nat → Byte)
    (runs : List Invocation)
    (address : Nat) :
    (rtlEeproms bytes runs).2 address = bytes address ∨
      ∃ before run later,
        runs = before ++ run :: later ∧
          Agreed run (rtlEeproms bytes before).2 address
            ((rtlEeproms bytes runs).2 address) := by
  induction runs generalizing bytes with
  | nil =>
      exact .inl rfl
  | cons run rest inductionHypothesis =>
      rw [rtlEeproms]
      dsimp only
      rcases inductionHypothesis (rtlEeprom run bytes).bytes with
        kept | ⟨before, later, others, split, agreed⟩
      · rw [kept]
        rcases rtlEeprom_agreed run bytes address with same | agreed
        · exact .inl same
        · exact .inr ⟨[], run, rest, rfl, agreed⟩
      · exact .inr ⟨run :: before, later, others, congrArg (run :: ·) split, agreed⟩

end LibRtlSdr.RtlEeprom
