import LibRtlSdr.RtlSdrResourcesStreams

namespace LibRtlSdr.RtlSdr

open PartialRun
open ResourceLedger

/-!
# Sessions that give everything back

A session is judged as a whole: whatever `libusb` and the allocations answer, it must
not touch what is not there, and nothing may be held at its end.
-/

/-! ## The ways through `rtlsdr_open` -/

section Open

variable (build : BuildOptions) (answers : OpenAnswers) (index : UInt32)

/-- The devices are listed, and none of them is the one that is asked for. -/
def FindsNone : Prop :=
  answers.malloc = true ∧ ¬ answers.init < 0 ∧
    ∃ list, answers.deviceList = some list ∧ openLoop index 0 0 list = none

/-- The device is found and its handle is opened. -/
def OpensHandle : Prop :=
  answers.malloc = true ∧ ¬ answers.init < 0 ∧
    ∃ place,
      openLoop index 0 0 (answers.deviceList.getD []) = some place ∧
        ¬ answers.openDevice place < 0

/-- The kernel driver has the device, and detaching it fails. -/
def DetachFails : Prop :=
  answers.driverActive = true ∧ build.detachKernelDriver = true ∧ answers.detach = false

/-- The kernel driver has had the device, and is detached. -/
def Detaches : Prop :=
  answers.driverActive = true ∧ build.detachKernelDriver = true ∧ answers.detach = true

/-- The device is handed out. -/
def HandsOut : Prop :=
  OpensHandle answers index ∧ ¬ DetachFails build answers ∧ ¬ answers.claim < 0

end Open

/-- Nothing is held. -/
def nothing : Held → Bool :=
  fun _ => false

/-- What is held between `rtlsdr_open` and `rtlsdr_close`. -/
def openHeld (detached : Bool) : Held → Bool
  | .device => true
  | .context => true
  | .handle => true
  | .interface => true
  | .detachedDriver => detached
  | _ => false

/-- What stays behind an `rtlsdr_open` that hands out no device. -/
def leftHeld (list detached : Bool) : Held → Bool
  | .deviceList => list
  | .detachedDriver => detached
  | _ => false

/-- Where detaching does not fail, it is tried exactly when it is done. -/
theorem detaches_iff
    {build : BuildOptions}
    {answers : OpenAnswers}
    (notFails : ¬ DetachFails build answers) :
    (answers.driverActive && build.detachKernelDriver) = true ↔
      Detaches build answers := by
  unfold Detaches
  rw [Bool.and_eq_true]
  constructor
  · rintro ⟨active, detaching⟩
    refine ⟨active, detaching, ?_⟩
    rw [← Bool.not_eq_false]
    exact fun kept => notFails ⟨active, detaching, kept⟩
  · rintro ⟨active, detaching, _⟩
    exact ⟨active, detaching⟩

/-- A device that is handed out was in the list. -/
theorem HandsOut.not_findsNone
    {build : BuildOptions}
    {answers : OpenAnswers}
    {index : UInt32}
    (handsOut : HandsOut build answers index) :
    ¬ FindsNone answers index := by
  rintro ⟨_, _, list, isList, none⟩
  obtain ⟨_, _, place, found, _⟩ := handsOut.1
  rw [isList, Option.getD_some, none] at found
  cases found

/-- The ways through `rtlsdr_open`, each with what is held behind it. -/
theorem rtlsdrOpen_cases
    (build : BuildOptions)
    (answers : OpenAnswers)
    (index : UInt32) :
    (∃ list detached,
        (list = true ↔ FindsNone answers index) ∧
        (detached = true ↔
          OpensHandle answers index ∧ Detaches build answers ∧ answers.claim < 0) ∧
        ¬ HandsOut build answers index ∧
        (rtlsdrOpen build answers index).outDev = none ∧
        run step nothing (rtlsdrOpen build answers index).accesses =
          some (leftHeld list detached)) ∨
      HandsOut build answers index ∧
        (rtlsdrOpen build answers index).result = 0 ∧
        (rtlsdrOpen build answers index).outDev = some answers.driverActive ∧
        run step nothing (rtlsdrOpen build answers index).accesses =
          some (openHeld (answers.driverActive && build.detachKernelDriver)) := by
  unfold rtlsdrOpen
  by_cases malloc : answers.malloc = true
  · rw [if_neg (by simp [malloc])]
    by_cases init : answers.init < 0
    · rw [if_pos init]
      refine .inl ⟨false, false, ?_, ?_, ?_, rfl, ?_⟩
      · simp [FindsNone, init]
      · simp [OpensHandle, init]
      · simp [HandsOut, OpensHandle, init]
      · rw [run_eq_some_iff]
        intro resource
        cases resource <;> simp [nothing, leftHeld, history, concerns, run_cons]
    · rw [if_neg init]
      dsimp only
      rcases found : openLoop index 0 0 (answers.deviceList.getD []) with _ | place
      · refine .inl ⟨answers.deviceList.isSome, false, ?_, ?_, ?_, rfl, ?_⟩
        · rcases listed : answers.deviceList with _ | list
          · simp [FindsNone, listed]
          · rw [listed, Option.getD_some] at found
            simp [FindsNone, listed, malloc, init, found]
        · simp [OpensHandle, found]
        · simp [HandsOut, OpensHandle, found]
        · rcases answers.deviceList with _ | list
          · rw [run_eq_some_iff]
            intro resource
            cases resource <;> simp [nothing, leftHeld, openErr, history, concerns, run_cons]
          · rw [run_eq_some_iff]
            intro resource
            cases resource <;> simp [nothing, leftHeld, openErr, history, concerns, run_cons]
      · have listed : answers.deviceList.isSome = true := by
          rcases isList : answers.deviceList with _ | list
          · rw [isList] at found
            cases found
          · rfl
        have finds : ¬ FindsNone answers index := by
          rintro ⟨_, _, list, isList, none⟩
          rw [isList, Option.getD_some, none] at found
          cases found
        rw [if_pos listed]
        dsimp only
        by_cases refused : answers.openDevice place < 0
        · rw [if_pos refused]
          have notOpens : ¬ OpensHandle answers index := by
            rintro ⟨_, _, other, isOther, opened⟩
            cases found.symm.trans isOther
            exact opened refused
          refine .inl ⟨false, false, by simp [finds], ?_, ?_, rfl, ?_⟩
          · simp [notOpens]
          · simp [HandsOut, notOpens]
          · rw [run_eq_some_iff]
            intro resource
            cases resource <;> simp [nothing, leftHeld, openErr, history, concerns, run_cons]
        · rw [if_neg refused]
          have opens : OpensHandle answers index := ⟨malloc, init, place, found, refused⟩
          by_cases fails :
              answers.driverActive = true ∧ build.detachKernelDriver = true ∧
                ¬ answers.detach = true
          · rw [if_pos fails]
            have detachFails : DetachFails build answers :=
              ⟨fails.1, fails.2.1, by simpa using fails.2.2⟩
            refine .inl ⟨false, false, by simp [finds], ?_, ?_, rfl, ?_⟩
            · simp [Detaches, fails.2.2]
            · simp [HandsOut, detachFails]
            · rw [run_eq_some_iff]
              intro resource
              cases resource <;>
                simp [nothing, leftHeld, openErr, history, concerns, run_cons]
          · rw [if_neg fails]
            have notFails : ¬ DetachFails build answers := by
              rintro ⟨active, detaching, kept⟩
              exact fails ⟨active, detaching, by simp [kept]⟩
            have detaches := detaches_iff notFails
            have isDetached :
                (answers.driverActive = true ∧ build.detachKernelDriver = true) ↔
                  (answers.driverActive && build.detachKernelDriver) = true := by
              rw [Bool.and_eq_true]
            by_cases unclaimed : answers.claim < 0
            · rw [if_pos unclaimed]
              refine .inl ⟨false, answers.driverActive && build.detachKernelDriver,
                by simp [finds], ?_, ?_, rfl, ?_⟩
              · rw [detaches]
                simp [opens, unclaimed]
              · simp [HandsOut, unclaimed]
              · rw [run_eq_some_iff]
                intro resource
                simp only [isDetached]
                rcases answers.driverActive && build.detachKernelDriver with _ | _ <;>
                  cases resource <;>
                  simp [nothing, leftHeld, openErr, history, concerns, run_cons]
            · rw [if_neg unclaimed]
              refine .inr ⟨⟨opens, notFails, unclaimed⟩, rfl, rfl, ?_⟩
              rw [run_eq_some_iff]
              intro resource
              simp only [isDetached]
              rcases answers.driverActive && build.detachKernelDriver with _ | _ <;>
                cases resource <;>
                simp [nothing, openHeld, history, concerns, run_cons]
  · rw [if_pos malloc]
    refine .inl ⟨false, false, ?_, ?_, ?_, rfl, ?_⟩
    · simp [FindsNone, malloc]
    · simp [OpensHandle, malloc]
    · simp [HandsOut, OpensHandle, malloc]
    · rw [run_eq_some_iff]
      intro resource
      cases resource <;> rfl

/--
`rtlsdr_open` reports an error exactly when it hands out no device, unless the kernel
driver cannot be detached: it then returns what `libusb_open` has returned.
-/
theorem rtlsdrOpen_reports_iff
    (build : BuildOptions)
    (answers : OpenAnswers)
    (index : UInt32) :
    ((rtlsdrOpen build answers index).result < 0 ↔
        (rtlsdrOpen build answers index).outDev = none) ↔
      ¬ (OpensHandle answers index ∧ DetachFails build answers) := by
  have error : (-1 : Int32) < 0 := by
    decide
  unfold rtlsdrOpen
  by_cases malloc : answers.malloc = true
  · rw [if_neg (by simp [malloc])]
    by_cases init : answers.init < 0
    · rw [if_pos init]
      refine iff_of_true (iff_of_true error rfl) ?_
      rintro ⟨⟨_, started, _⟩, _⟩
      exact started init
    · rw [if_neg init]
      dsimp only
      rcases found : openLoop index 0 0 (answers.deviceList.getD []) with _ | place
      · refine iff_of_true (iff_of_true error rfl) ?_
        rintro ⟨⟨_, _, place, isPlace, _⟩, _⟩
        cases found.symm.trans isPlace
      · dsimp only
        by_cases refused : answers.openDevice place < 0
        · rw [if_pos refused]
          refine iff_of_true (iff_of_true refused rfl) ?_
          rintro ⟨⟨_, _, other, isOther, opened⟩, _⟩
          cases found.symm.trans isOther
          exact opened refused
        · rw [if_neg refused]
          have opens : OpensHandle answers index := ⟨malloc, init, place, found, refused⟩
          by_cases fails :
              answers.driverActive = true ∧ build.detachKernelDriver = true ∧
                ¬ answers.detach = true
          · rw [if_pos fails]
            have detachFails : DetachFails build answers :=
              ⟨fails.1, fails.2.1, by simpa using fails.2.2⟩
            refine iff_of_false ?_ (not_not_intro ⟨opens, detachFails⟩)
            exact fun reports => refused (reports.mpr rfl)
          · rw [if_neg fails]
            have notFails : ¬ (OpensHandle answers index ∧ DetachFails build answers) :=
              fun ⟨_, active, detaching, kept⟩ => fails ⟨active, detaching, by simp [kept]⟩
            refine iff_of_true ?_ notFails
            by_cases unclaimed : answers.claim < 0
            · rw [if_pos unclaimed]
              exact iff_of_true unclaimed rfl
            · rw [if_neg unclaimed]
              exact iff_of_false (by simp) (by simp)
  · rw [if_pos malloc]
    refine iff_of_true (iff_of_true (by decide : (-12 : Int32) < 0) rfl) ?_
    rintro ⟨⟨allocated, _⟩, _⟩
    exact malloc allocated

/-! ## Whole sessions -/

/-- The streams of a session leave the ledger as it was exactly when each is sound. -/
theorem run_streams_iff
    {build : BuildOptions}
    {streams : List StreamAnswers}
    {held : Held → Bool}
    (idle : ∀ resource, StreamAnswers.Streaming resource → held resource = false)
    (after : Held → Bool) :
    run step held (streams.flatMap fun answers => answers.readAsync build) = some after ↔
      (∀ answers ∈ streams, answers.Sound build) ∧ after = held := by
  induction streams with
  | nil =>
      simp [eq_comm]
  | cons answers rest inductionHypothesis =>
      rw [List.flatMap_cons, run_append_eq_some, List.forall_mem_cons]
      constructor
      · rintro ⟨middle, reached, reachedRest⟩
        obtain ⟨sound, rfl⟩ := (StreamAnswers.run_readAsync_iff idle middle).mp reached
        obtain ⟨others, rfl⟩ := inductionHypothesis.mp reachedRest
        exact ⟨⟨sound, others⟩, rfl⟩
      · rintro ⟨⟨sound, others⟩, rfl⟩
        exact ⟨after, StreamAnswers.run_readAsync sound idle,
          inductionHypothesis.mpr ⟨others, rfl⟩⟩

/-- What `rtlsdr_close` leaves: the driver, if it was detached and is not attached again. -/
theorem run_rtlsdrClose
    (build : BuildOptions)
    (answers : CloseAnswers)
    (driverActive : Bool) :
    run step (openHeld (driverActive && build.detachKernelDriver))
        (rtlsdrClose build answers driverActive) =
      some (leftHeld false
        (driverActive && build.detachKernelDriver && !answers.attach)) := by
  rw [run_eq_some_iff]
  intro resource
  unfold rtlsdrClose
  rcases driverActive with _ | _ <;>
    rcases build.detachKernelDriver with _ | _ <;>
    rcases answers.attach with _ | _ <;>
    rcases answers.devLost with _ | _ <;>
    cases resource <;>
    simp [openHeld, leftHeld, history, concerns, run_cons]

theorem leftHeld_eq_nothing_iff
    (list detached : Bool) :
    leftHeld list detached = nothing ↔ list = false ∧ detached = false := by
  constructor
  · intro same
    exact ⟨congrFun same .deviceList, congrFun same .detachedDriver⟩
  · rintro ⟨rfl, rfl⟩
    funext resource
    cases resource <;> rfl

end LibRtlSdr.RtlSdr
