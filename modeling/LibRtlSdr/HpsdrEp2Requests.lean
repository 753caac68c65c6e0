import LibRtlSdr.HpsdrEp2Refinement

namespace LibRtlSdr.Hpsdr

/-!
# The requests of the PC and the order of its commands

The PC side of the handler: the configuration it last asked for, and the
reading of a datagram as two commands that take effect one after the other.
Both are met exactly by packets that do not hold two different config frames.
-/

/-! ## The configuration last requested -/

/-- The config frames of a packet, in the order they stand in it. -/
def configRequests (buffer : Ep2Buffer) : List ConfigRequest :=
  (frameRequest buffer 0).toList ++ (frameRequest buffer 512).toList

/-- What the last config frame sent so far asked for. -/
def lastRequest (packets : List Ep2Buffer) : ConfigRequest :=
  packets.foldl
    (fun request buffer => (configRequests buffer).getLast?.getD request)
    .initial

@[simp] theorem lastRequest_concat
    (packets : List Ep2Buffer)
    (buffer : Ep2Buffer) :
    lastRequest (packets ++ [buffer]) =
      (configRequests buffer).getLast?.getD (lastRequest packets) := by
  simp [lastRequest, List.foldl_append]

/-- No config frame of the packets asks for more than `MAX_RCVRS` receivers. -/
def Supported (packets : List Ep2Buffer) : Prop :=
  ∀ buffer ∈ packets, ∀ request ∈ configRequests buffer,
    request.numRcvrs ≤ maxRcvrs

/-- The config frames of a packet, if it has two, ask for the same. -/
def OneRequest (buffer : Ep2Buffer) : Prop :=
  ∀ first ∈ configRequests buffer, ∀ second ∈ configRequests buffer,
    first = second

/-- The code installs the first config frame of a packet. -/
theorem selectedRequest_eq_head?
    (buffer : Ep2Buffer) :
    selectedRequest buffer = (configRequests buffer).head? := by
  unfold selectedRequest configRequests
  cases frameRequest buffer 0 <;> cases frameRequest buffer 512 <;> rfl

/-- With one request in the packet, first and last config frame agree. -/
theorem OneRequest.selectedRequest_eq
    {buffer : Ep2Buffer}
    (oneRequest : OneRequest buffer) :
    selectedRequest buffer = (configRequests buffer).getLast? := by
  rw [selectedRequest_eq_head?]
  cases requests : configRequests buffer with
  | nil =>
      rfl
  | cons first rest =>
      have nonempty : first :: rest ≠ [] :=
        List.cons_ne_nil first rest
      have lastMember :
          (first :: rest).getLast nonempty ∈ configRequests buffer := by
        rw [requests]
        exact List.getLast_mem nonempty
      have firstMember : first ∈ configRequests buffer := by
        rw [requests]
        exact List.mem_cons_self
      have same := oneRequest first firstMember _ lastMember
      rw [List.head?_cons, List.getLast?_eq_getLast_of_ne_nil nonempty]
      exact congrArg some same

theorem heldRequest_eq_lastRequest
    {packets : List Ep2Buffer}
    (oneRequest : ∀ buffer ∈ packets, OneRequest buffer) :
    heldRequest packets = lastRequest packets := by
  induction packets using List.reverseRecOn with
  | nil =>
      rfl
  | append_singleton earlier buffer inductionHypothesis =>
      rw [heldRequest_concat, lastRequest_concat,
        (oneRequest buffer (by simp)).selectedRequest_eq,
        inductionHypothesis
          (fun other member => oneRequest other (by simp [member]))]

/-- The receiver configuration, without frequencies and caches. -/
structure RcvrConfiguration where
  activeNumRcvrs : Nat
  numCopyRcvrs : Nat
  rcvrsMask : Nat
  nsampsPacket : Nat
  frameOffset1 : Nat
  frameOffset2 : Nat
  outputRate : OutputRate
  rcvrMask : Nat → Nat
  copyRcvr : Nat → Int

namespace Ep2State

/-- Read the receiver configuration off the globals. -/
def configuration (state : Ep2State) : RcvrConfiguration where
  activeNumRcvrs := state.activeNumRcvrs
  numCopyRcvrs := state.numCopyRcvrs
  rcvrsMask := state.rcvrsMask
  nsampsPacket := state.nsampsPacket
  frameOffset1 := state.frameOffset1
  frameOffset2 := state.frameOffset2
  outputRate := state.outputRate
  rcvrMask := state.rcvrMask
  copyRcvr := state.copyRcvr

end Ep2State

@[simp] theorem storeFrame_configuration
    (total : RcvrTotal)
    (buffer : Ep2Buffer)
    (offset : Nat)
    (state : Ep2State) :
    (storeFrame total buffer offset state).configuration =
      state.configuration := by
  unfold storeFrame storeFreq
  split_ifs <;> rfl

/--
What is asked of the call for `buffer` after the packets `earlier`: it returns,
the configuration is the one last requested, and a packet that only repeats the
current request leaves the configuration alone.
-/
def ConfiguredAsRequested
    (total : RcvrTotal)
    (earlier : List Ep2Buffer)
    (buffer : Ep2Buffer) : Prop :=
  ∃ before after,
    runEp2 total .initial earlier = some before ∧
      processEp2 total before buffer = some after ∧
      Installed total (lastRequest (earlier ++ [buffer])) after ∧
      ((∀ request ∈ configRequests buffer, request = lastRequest earlier) →
        after.configuration = before.configuration)

/-- A packet that repeats the held request leaves the configuration alone. -/
theorem Coherent.configuration_of_repeat
    {total : RcvrTotal}
    {held : ConfigRequest}
    {before after : Ep2State}
    (coherent : Coherent total held before)
    {buffer : Ep2Buffer}
    (repeated : ∀ request ∈ selectedRequest buffer, request = held)
    (taken : Hpsdr.processEp2 total before buffer = some after) :
    after.configuration = before.configuration := by
  have unchanged :
      configureWith total (selectedRequest buffer) before = some before := by
    cases selected : selectedRequest buffer with
    | none =>
        rfl
    | some request =>
        rw [repeated request selected]
        exact configure_of_caches coherent.lastRate coherent.lastNumRcvrs
  rw [processEp2_eq, unchanged, Option.map_some, Option.some.injEq] at taken
  rw [← taken, storeFrame_configuration, storeFrame_configuration]

/-- Supported packets never stop the program. -/
theorem exists_runEp2
    (total : RcvrTotal)
    {packets : List Ep2Buffer}
    (supported : Supported packets) :
    ∃ state, runEp2 total .initial packets = some state := by
  induction packets using List.reverseRecOn with
  | nil =>
      exact ⟨_, rfl⟩
  | append_singleton earlier buffer inductionHypothesis =>
      obtain ⟨middle, reached⟩ :=
        inductionHypothesis
          (fun other member => supported other (by simp [member]))
      have selectedSupported :
          ∀ request ∈ selectedRequest buffer,
            request.numRcvrs ≤ maxRcvrs := by
        intro request selected
        rw [selectedRequest_eq_head?] at selected
        exact supported buffer (by simp) request
          (List.mem_of_mem_head? selected)
      obtain ⟨next, taken, _⟩ :=
        (runEp2_coherent reached).processEp2 selectedSupported
      exact ⟨next, PartialRun.run_concat_eq_some.mpr
        ⟨middle, reached, taken⟩⟩

/-- If the configuration follows a packet, its config frames do not disagree. -/
theorem ConfiguredAsRequested.oneRequest
    {total : RcvrTotal}
    {earlier : List Ep2Buffer}
    {buffer : Ep2Buffer}
    (configured : ConfiguredAsRequested total earlier buffer) :
    OneRequest buffer := by
  obtain ⟨before, after, reached, taken, installedLast, _⟩ := configured
  have coherent : Coherent total (heldRequest (earlier ++ [buffer])) after :=
    runEp2_coherent
      (PartialRun.run_concat_eq_some.mpr ⟨before, reached, taken⟩)
  have sameRequest :
      heldRequest (earlier ++ [buffer]) = lastRequest (earlier ++ [buffer]) :=
    coherent.installed.request_unique installedLast rfl rfl rfl
  rw [heldRequest_concat, lastRequest_concat, selectedRequest_eq_head?]
    at sameRequest
  unfold OneRequest
  unfold configRequests at sameRequest ⊢
  cases first : frameRequest buffer 0 <;>
    cases second : frameRequest buffer 512 <;>
      simp_all

/-- Without disagreeing config frames the configuration follows each packet. -/
theorem configuredAsRequested_of_oneRequest
    (total : RcvrTotal)
    {earlier : List Ep2Buffer}
    {buffer : Ep2Buffer}
    (supported : Supported (earlier ++ [buffer]))
    (oneRequest : ∀ packet ∈ earlier ++ [buffer], OneRequest packet) :
    ConfiguredAsRequested total earlier buffer := by
  obtain ⟨after, reached⟩ := exists_runEp2 total supported
  obtain ⟨before, reachedBefore, taken⟩ :=
    PartialRun.run_concat_eq_some.mp reached
  have earlierOne : ∀ packet ∈ earlier, OneRequest packet :=
    fun packet member => oneRequest packet (by simp [member])
  refine ⟨before, after, reachedBefore, taken, ?_, ?_⟩
  · rw [← heldRequest_eq_lastRequest oneRequest]
    exact (runEp2_coherent reached).installed
  · intro repeated
    have coherent := runEp2_coherent reachedBefore
    rw [heldRequest_eq_lastRequest earlierOne] at coherent
    refine coherent.configuration_of_repeat ?_ taken
    intro request selected
    rw [selectedRequest_eq_head?] at selected
    exact repeated request (List.mem_of_mem_head? selected)

/--
The configuration is the one last requested after every packet of a run,
exactly when no packet carries two config frames that ask for different things.
-/
theorem ep2_configuration_last_requested_iff
    (total : RcvrTotal)
    (packets : List Ep2Buffer)
    (supported : Supported packets) :
    (∀ earlier buffer later,
        packets = earlier ++ buffer :: later →
        ConfiguredAsRequested total earlier buffer) ↔
      ∀ buffer ∈ packets, OneRequest buffer := by
  constructor
  · intro configured buffer member
    obtain ⟨earlier, later, split⟩ := List.append_of_mem member
    exact (configured earlier buffer later split).oneRequest
  · intro oneRequest earlier buffer later split
    have leading : packets = (earlier ++ [buffer]) ++ later := by
      simp [split]
    apply configuredAsRequested_of_oneRequest total
    · intro packet member
      exact supported packet
        (by rw [leading]; exact List.mem_append_left later member)
    · intro packet member
      exact oneRequest packet
        (by rw [leading]; exact List.mem_append_left later member)

/-- One dongle. -/
def oneRcvr : RcvrTotal where
  count := 1
  pos := by decide
  leMax := by decide

/-- Two config frames: the first asks for 96 kHz, the second for 192 kHz. -/
def conflictingPacket : Ep2Buffer :=
  fun position =>
    if position = 12 then 1 else if position = 524 then 2 else 0

/-- The requests in the conflicting packet are both for one receiver. -/
theorem conflictingPacket_supported : Supported [conflictingPacket] := by
  intro buffer member request requested
  have only : buffer = conflictingPacket := List.mem_singleton.mp member
  subst only
  have requests :
      configRequests conflictingPacket =
        [.ofFrame conflictingPacket 0, .ofFrame conflictingPacket 512] := by
    decide
  rw [requests] at requested
  simp only [List.mem_cons, List.not_mem_nil, or_false] at requested
  rcases requested with first | second
  · subst first
    decide
  · subst second
    decide

/-- The code ends at 96 kHz although the last config frame asked for 192 kHz. -/
theorem conflictingPacket_rate :
    (processEp2 oneRcvr .initial conflictingPacket).map
        Ep2State.outputRate = some .hz96000 := by
  decide

/-- After the conflicting packet the configuration is not the one last requested. -/
theorem ep2_configuration_not_last_requested :
    Supported [conflictingPacket] ∧
      ¬ ConfiguredAsRequested oneRcvr [] conflictingPacket := by
  refine ⟨conflictingPacket_supported, ?_⟩
  rintro ⟨before, after, reached, taken, installed, _⟩
  cases reached
  have code : some after.outputRate = some .hz96000 := by
    rw [← conflictingPacket_rate, taken]
    rfl
  have asked : after.outputRate = .hz192000 := by
    rw [installed.rate]
    decide
  rw [asked] at code
  cases code

/-- The characterisation at a packet that asks twice for the same. -/
theorem ep2_configuration_last_requested_repeated :
    Supported [fun _ => 0] ∧
      ((∀ earlier buffer later,
          [fun _ => 0] = earlier ++ buffer :: later →
          ConfiguredAsRequested oneRcvr earlier buffer) ↔
        ∀ buffer ∈ [fun _ => 0], OneRequest buffer) := by
  have supported : Supported [fun _ => 0] := by
    intro buffer member request requested
    have only : buffer = fun _ => 0 := List.mem_singleton.mp member
    subst only
    have requests :
        configRequests (fun _ => 0) = [.initial, .initial] := by
      decide
    rw [requests] at requested
    have isInitial : request = .initial := by
      simpa using requested
    subst isInitial
    decide
  exact ⟨supported,
    ep2_configuration_last_requested_iff oneRcvr _ supported⟩

/-! ## The two frames as two commands -/

/--
The command of one USB frame on its own: a frequency, a configuration, or
nothing that this handler knows.
-/
def applyFrame
    (total : RcvrTotal)
    (buffer : Ep2Buffer)
    (offset : Nat)
    (state : Ep2State) :
    Option Ep2State :=
  let c0 := controlByte buffer offset
  if FreqAddress total c0 then
    some (storeFreq total ((c0 - 4) / 2) (freqWord buffer offset) state)
  else if c0 = 0 then
    configure total (.ofFrame buffer offset) state
  else
    some state

/-- The command of the first frame and then the command of the second. -/
def applyFrames
    (total : RcvrTotal)
    (state : Ep2State)
    (buffer : Ep2Buffer) :
    Option Ep2State :=
  (applyFrame total buffer 0 state).bind (applyFrame total buffer 512)

/-- What a packet leaves behind for the rest of the program. -/
structure Ep2Outcome where
  configuration : RcvrConfiguration
  newFreq : Nat → BitVec 32
  lastFreq : Nat → BitVec 32

/-- Forget the caches of the handler. -/
def Ep2State.outcome (state : Ep2State) : Ep2Outcome where
  configuration := state.configuration
  newFreq := state.newFreq
  lastFreq := state.lastFreq

/-- Both stop the program, or both leave the same outcome. -/
def SameOutcome (first second : Option Ep2State) : Prop :=
  first.map Ep2State.outcome = second.map Ep2State.outcome

/--
Two config frames in one packet ask for the same, or the first one already
asks for more receivers than the program supports.
-/
def FramesAgree (buffer : Ep2Buffer) : Prop :=
  ∀ first ∈ frameRequest buffer 0, ∀ second ∈ frameRequest buffer 512,
    first = second ∨ maxRcvrs < first.numRcvrs

/-- One frame installs its request and stores its frequency. -/
theorem applyFrame_eq
    (total : RcvrTotal)
    (buffer : Ep2Buffer)
    (offset : Nat)
    (state : Ep2State) :
    applyFrame total buffer offset state =
      (configureWith total (frameRequest buffer offset) state).map
        (storeFrame total buffer offset) := by
  unfold applyFrame frameRequest
  by_cases tunes : FreqAddress total (controlByte buffer offset)
  · have notConfig : controlByte buffer offset ≠ 0 := by
      have := tunes.1
      omega
    simp [tunes, notConfig, configureWith, storeFrame]
  · have noStore : storeFrame total buffer offset = id := by
      funext other
      simp [storeFrame, tunes]
    by_cases config : controlByte buffer offset = 0
    · simp [config, configureWith, noStore, FreqAddress]
    · simp [tunes, config, configureWith, noStore]

/-- Both commands: both requests, then both frequencies. -/
theorem applyFrames_eq
    (total : RcvrTotal)
    (state : Ep2State)
    (buffer : Ep2Buffer) :
    applyFrames total state buffer =
      ((configureWith total (frameRequest buffer 0) state).bind
          (configureWith total (frameRequest buffer 512))).map
        (fun configured =>
          storeFrame total buffer 512
            (storeFrame total buffer 0 configured)) := by
  unfold applyFrames
  rw [applyFrame_eq]
  cases configureWith total (frameRequest buffer 0) state with
  | none =>
      rfl
  | some middle =>
      simp only [Option.map_some, Option.bind_some]
      rw [applyFrame_eq, configureWith_storeFrame, Option.map_map]
      rfl

/-- Without two different config frames the loop is the two commands in order. -/
theorem OneRequest.processEp2_eq_applyFrames
    {buffer : Ep2Buffer}
    (oneRequest : OneRequest buffer)
    (total : RcvrTotal)
    (state : Ep2State) :
    processEp2 total state buffer = applyFrames total state buffer := by
  rw [processEp2_eq, applyFrames_eq]
  congr 1
  unfold OneRequest configRequests at oneRequest
  unfold selectedRequest
  cases first : frameRequest buffer 0 with
  | none =>
      rfl
  | some request =>
      cases second : frameRequest buffer 512 with
      | none =>
          change configure total request state =
            (configure total request state).bind some
          cases configure total request state <;> rfl
      | some other =>
          have same : request = other :=
            oneRequest request (by simp [first]) other (by simp [second])
          subst same
          change configure total request state =
            (configure total request state).bind (configure total request)
          cases configured : configure total request state with
          | none =>
              rfl
          | some next =>
              obtain ⟨sameRate, sameCount⟩ := configure_caches configured
              exact (configure_of_caches sameRate sameCount).symm

/-- The two readings of a packet part at a second, different config frame. -/
theorem Coherent.framesAgree_of_sameOutcome
    {total : RcvrTotal}
    {held : ConfigRequest}
    {state : Ep2State}
    (coherent : Coherent total held state)
    {buffer : Ep2Buffer}
    (same :
      SameOutcome (Hpsdr.processEp2 total state buffer)
        (applyFrames total state buffer)) :
    FramesAgree buffer := by
  intro first isFirst second isSecond
  by_contra disagree
  obtain ⟨different, firstSupported⟩ := not_or.mp disagree
  obtain ⟨middle, configuredFirst, middleCoherent⟩ :=
    coherent.configure (Nat.le_of_not_lt firstSupported)
  rw [SameOutcome, processEp2_eq, applyFrames_eq, selectedRequest,
    Option.mem_def.mp isFirst, Option.mem_def.mp isSecond] at same
  simp only [Option.some_or, configureWith, configuredFirst,
    Option.bind_some, Option.map_some] at same
  by_cases secondSupported : second.numRcvrs ≤ maxRcvrs
  · obtain ⟨last, configuredSecond, lastCoherent⟩ :=
      middleCoherent.configure secondSupported
    rw [configuredSecond, Option.map_some, Option.map_some,
      Option.some.injEq] at same
    have sameConfiguration :
        middle.configuration = last.configuration := by
      have := congrArg Ep2Outcome.configuration same
      simpa [Ep2State.outcome] using this
    exact different
      (middleCoherent.installed.request_unique lastCoherent.installed
        (congrArg RcvrConfiguration.activeNumRcvrs sameConfiguration)
        (congrArg RcvrConfiguration.numCopyRcvrs sameConfiguration)
        (congrArg RcvrConfiguration.outputRate sameConfiguration))
  · rw [middleCoherent.configure_exits (Nat.lt_of_not_le secondSupported)]
      at same
    cases same

/-- A first request for too many receivers stops both readings. -/
theorem Coherent.sameOutcome_of_framesAgree
    {total : RcvrTotal}
    {held : ConfigRequest}
    {state : Ep2State}
    (coherent : Coherent total held state)
    {buffer : Ep2Buffer}
    (agree : FramesAgree buffer) :
    SameOutcome (Hpsdr.processEp2 total state buffer)
      (applyFrames total state buffer) := by
  by_cases oneRequest : OneRequest buffer
  · rw [SameOutcome, oneRequest.processEp2_eq_applyFrames]
  · cases isFirst : frameRequest buffer 0 with
    | none =>
        exfalso
        apply oneRequest
        unfold OneRequest configRequests
        cases frameRequest buffer 512 <;> simp [isFirst]
    | some first =>
        have unsupported : maxRcvrs < first.numRcvrs := by
          by_contra supported
          apply oneRequest
          unfold OneRequest configRequests
          cases isSecond : frameRequest buffer 512 with
          | none =>
              simp [isFirst]
          | some second =>
              have same : first = second :=
                (agree first isFirst second isSecond).resolve_right supported
              simp [isFirst, same]
        rw [SameOutcome, processEp2_eq, applyFrames_eq, selectedRequest,
          isFirst]
        simp [configureWith, coherent.configure_exits unsupported]

/--
A packet has the effect of its two commands in order, whatever the state is, if
it does not hold two different config frames.  In every state that a run of
packets reaches this is also necessary, up to a first config frame that already
ends the program.
-/
theorem processEp2_sequential_iff
    (total : RcvrTotal)
    (state : Ep2State)
    (buffer : Ep2Buffer) :
    (OneRequest buffer →
        processEp2 total state buffer = applyFrames total state buffer) ∧
      ∀ packets,
        runEp2 total .initial packets = some state →
        (SameOutcome (processEp2 total state buffer)
            (applyFrames total state buffer) ↔
          FramesAgree buffer) := by
  refine ⟨fun oneRequest =>
    oneRequest.processEp2_eq_applyFrames total state, ?_⟩
  intro packets reached
  have coherent := runEp2_coherent reached
  exact ⟨coherent.framesAgree_of_sameOutcome,
    coherent.sameOutcome_of_framesAgree⟩

/-- With two different config frames the handler drops the second command. -/
theorem processEp2_not_sequential :
    ¬ SameOutcome (processEp2 oneRcvr .initial conflictingPacket)
        (applyFrames oneRcvr .initial conflictingPacket) := by
  intro same
  have sameRate :
      (processEp2 oneRcvr .initial conflictingPacket).map
          Ep2State.outputRate =
        (applyFrames oneRcvr .initial conflictingPacket).map
          Ep2State.outputRate := by
    have rates := congrArg
      (Option.map fun outcome => outcome.configuration.outputRate) same
    rw [Option.map_map, Option.map_map] at rates
    exact rates
  have commands :
      (applyFrames oneRcvr .initial conflictingPacket).map
          Ep2State.outputRate = some .hz192000 := by
    decide
  rw [conflictingPacket_rate, commands] at sameRate
  cases sameRate

/-- The characterisation in the initial state, at a packet without commands. -/
theorem processEp2_sequential_idle :
    processEp2 oneRcvr .initial (fun _ => 2) =
        applyFrames oneRcvr .initial (fun _ => 2) ∧
      (SameOutcome (processEp2 oneRcvr .initial fun _ => 2)
          (applyFrames oneRcvr .initial fun _ => 2) ↔
        FramesAgree fun _ => 2) := by
  have noRequests : configRequests (fun _ => 2) = [] := by
    decide
  have oneRequest : OneRequest (fun _ => 2) := by
    simp [OneRequest, noRequests]
  obtain ⟨sufficient, exact⟩ :=
    processEp2_sequential_iff oneRcvr .initial (fun _ => 2)
  exact ⟨sufficient oneRequest, exact [] rfl⟩

end LibRtlSdr.Hpsdr
