import LibRtlSdr.HpsdrProcessEp2

namespace LibRtlSdr.Hpsdr

/-!
# What `process_ep2` keeps of a run of packets

Seen from the PC the handler is a small machine: its state is the last
configuration asked for, and a packet with a config frame replaces it.
`Coherent` relates that abstract state to the derived globals of the program,
and the loop of two passes is one update of it: the config part always takes the
first config frame of a packet, and the second pass finds it installed.
-/

namespace ConfigRequest

/-- Three bits ask for at most eight receivers. -/
theorem numRcvrs_le (request : ConfigRequest) :
    request.numRcvrs ≤ 8 := by
  have bounded :
      ∀ bits : BitVec 8,
        bits &&& 0x38 = bits → (bits >>> 3).toNat + 1 ≤ 8 := by
    decide
  have masked := congrArg UInt8.toBitVec request.countMasked
  simpa [numRcvrs] using bounded request.countBits.toBitVec
    (by simpa using masked)

theorem numRcvrs_pos (request : ConfigRequest) :
    0 < request.numRcvrs :=
  Nat.succ_pos _

/-- Different count bits ask for different receiver counts. -/
theorem countBits_eq_of_numRcvrs_eq
    {first second : ConfigRequest}
    (sameCount : first.numRcvrs = second.numRcvrs) :
    first.countBits = second.countBits := by
  have restored :
      ∀ bits : BitVec 8, bits &&& 0x38 = bits → bits = (bits >>> 3) <<< 3 := by
    decide
  have shape (request : ConfigRequest) :
      request.countBits = (request.countBits >>> 3) <<< 3 := by
    apply UInt8.toBitVec_inj.mp
    have masked := congrArg UInt8.toBitVec request.countMasked
    simpa using restored request.countBits.toBitVec (by simpa using masked)
  have sameShift :
      first.countBits >>> 3 = second.countBits >>> 3 :=
    UInt8.toNat_inj.mp (Nat.succ_injective sameCount)
  rw [shape first, shape second, sameShift]

/-- The output rate that the rate bits ask for. -/
def rate (request : ConfigRequest) : OutputRate :=
  rateOfBits request.rateBits .hz48000

/-- The two rate bits have four values. -/
theorem rateBits_cases (request : ConfigRequest) :
    request.rateBits = 0 ∨ request.rateBits = 1 ∨
      request.rateBits = 2 ∨ request.rateBits = 3 := by
  have cases :
      ∀ bits : BitVec 8,
        bits &&& 3 = bits → bits = 0 ∨ bits = 1 ∨ bits = 2 ∨ bits = 3 := by
    decide
  have masked := congrArg UInt8.toBitVec request.rateMasked
  have found := cases request.rateBits.toBitVec (by simpa using masked)
  simpa [← UInt8.toBitVec_inj] using found

/-- The `default` branch of the rate switch is never taken. -/
theorem rateOfBits_eq_rate
    (request : ConfigRequest)
    (current : OutputRate) :
    rateOfBits request.rateBits current = request.rate := by
  rcases request.rateBits_cases with bits | bits | bits | bits <;>
    simp [rate, rateOfBits, bits]

/-- Different rate bits ask for different rates. -/
theorem rateBits_eq_of_rate_eq
    {first second : ConfigRequest}
    (sameRate : first.rate = second.rate) :
    first.rateBits = second.rateBits := by
  rcases first.rateBits_cases with bits | bits | bits | bits <;>
    rcases second.rateBits_cases with others | others | others | others <;>
      simp_all [rate, rateOfBits]

/-- A request is determined by the count and the rate it asks for. -/
theorem eq_of_numRcvrs_of_rate
    {first second : ConfigRequest}
    (sameCount : first.numRcvrs = second.numRcvrs)
    (sameRate : first.rate = second.rate) :
    first = second := by
  have countBits := countBits_eq_of_numRcvrs_eq sameCount
  have rateBits := rateBits_eq_of_rate_eq sameRate
  cases first
  cases second
  simp_all

/-- What the set-up in `main` amounts to: 48 kHz and one receiver. -/
def initial : ConfigRequest where
  rateBits := 0
  countBits := 0
  rateMasked := rfl
  countMasked := rfl

@[simp] theorem initial_numRcvrs : initial.numRcvrs = 1 :=
  rfl

end ConfigRequest

/-! ## The loops of the receiver set-up -/

/-- The loop that enables receivers leaves the mask of the first `active` bits. -/
theorem enabledMask_eq_wordOf
    {active : Nat}
    (pos : 0 < active) :
    enabledMask active = FlagWord.wordOf (List.range active) := by
  apply Nat.eq_of_testBit_eq
  intro bit
  have lowest : Nat.testBit 1 bit = decide (bit = 0) :=
    FlagWord.testBit_one_shiftLeft 0 bit
  rw [enabledMask, FlagWord.testBit_foldl_raise, FlagWord.testBit_wordOf,
    lowest]
  simp only [List.mem_range'_1, List.mem_range, ← Bool.decide_or,
    decide_eq_decide]
  omega

/-- The two mask loops, receiver by receiver. -/
theorem enableRcvrs_apply
    {total active : Nat}
    (pos : 0 < active)
    (rcvrMask : Nat → Nat)
    (rcvr : Nat) :
    enableRcvrs total active rcvrMask rcvr =
      if 0 < rcvr ∧ rcvr < active then
        1 <<< rcvr
      else if 0 < rcvr ∧ rcvr < total then
        0
      else
        rcvrMask rcvr := by
  have inActive :
      rcvr ∈ List.range' 1 (active - 1) ↔ 0 < rcvr ∧ rcvr < active := by
    rw [List.mem_range'_1]
    omega
  have inTotal :
      rcvr ∈ List.range' 1 (total - 1) ↔ 0 < rcvr ∧ rcvr < total := by
    rw [List.mem_range'_1]
    omega
  rw [enableRcvrs, OverlayWrites.foldl_update_apply,
    OverlayWrites.foldl_update_apply (fun _ => 0)]
  simp only [inActive, inTotal]

/-- The copy loop, entry by entry. -/
theorem markCopies_apply
    (active numRcvrs : Nat)
    (copyRcvr : Nat → Int)
    (j : Nat) :
    markCopies active numRcvrs copyRcvr j =
      if active ≤ j ∧ j < numRcvrs then (j : Int) else copyRcvr j := by
  have inCopies :
      j ∈ List.range' active (numRcvrs - active) ↔
        active ≤ j ∧ j < numRcvrs := by
    rw [List.mem_range'_1]
    omega
  rw [markCopies, OverlayWrites.foldl_update_apply]
  simp only [inCopies]

/-! ## The loop of two passes, as one update -/

/-- The config request of the frame at `offset`, if it is a config frame. -/
def frameRequest (buffer : Ep2Buffer) (offset : Nat) : Option ConfigRequest :=
  if controlByte buffer offset = 0 then
    some (.ofFrame buffer offset)
  else
    none

/-- Install a request, when there is one. -/
def configureWith
    (total : RcvrTotal)
    (request : Option ConfigRequest)
    (state : Ep2State) :
    Option Ep2State :=
  match request with
  | none =>
      some state
  | some request =>
      configure total request state

/-- Store the frequency of the frame at `offset`, if it carries one. -/
def storeFrame
    (total : RcvrTotal)
    (buffer : Ep2Buffer)
    (offset : Nat)
    (state : Ep2State) :
    Ep2State :=
  if FreqAddress total (controlByte buffer offset) then
    storeFreq total ((controlByte buffer offset - 4) / 2)
      (freqWord buffer offset) state
  else
    state

theorem storeFreq_lastNumRcvrs
    (total : RcvrTotal)
    (j : Nat)
    (freq : BitVec 32)
    (state : Ep2State) :
    (storeFreq total j freq state).lastNumRcvrs = state.lastNumRcvrs := by
  unfold storeFreq
  split <;> rfl

theorem storeFreq_lastRate
    (total : RcvrTotal)
    (j : Nat)
    (freq : BitVec 32)
    (state : Ep2State) :
    (storeFreq total j freq state).lastRate = state.lastRate := by
  unfold storeFreq
  split <;> rfl

theorem configureRate_storeFreq
    (total : RcvrTotal)
    (request : ConfigRequest)
    (j : Nat)
    (freq : BitVec 32)
    (state : Ep2State) :
    configureRate request (storeFreq total j freq state) =
      storeFreq total j freq (configureRate request state) := by
  unfold configureRate
  rw [storeFreq_lastRate]
  split
  · unfold storeFreq
    dsimp only
    split <;> rfl
  · rfl

theorem installRcvrs_storeFreq
    (total : RcvrTotal)
    (countBits : UInt8)
    (numRcvrs j : Nat)
    (freq : BitVec 32)
    (state : Ep2State) :
    installRcvrs total countBits numRcvrs (storeFreq total j freq state) =
      storeFreq total j freq
        (installRcvrs total countBits numRcvrs state) := by
  by_cases stores : state.lastFreq j ≠ freq ∧ 0 ≠ freq
  · have storesToo :
        (installRcvrs total countBits numRcvrs state).lastFreq j ≠ freq ∧
          0 ≠ freq :=
      stores
    rw [storeFreq, if_pos stores, storeFreq, if_pos storesToo]
    rfl
  · have keeps :
        ¬ ((installRcvrs total countBits numRcvrs state).lastFreq j ≠ freq ∧
          0 ≠ freq) :=
      stores
    rw [storeFreq, if_neg stores, storeFreq, if_neg keeps]

/-- The config part reads nothing that storing a frequency changes. -/
theorem configure_storeFreq
    (total : RcvrTotal)
    (request : ConfigRequest)
    (j : Nat)
    (freq : BitVec 32)
    (state : Ep2State) :
    configure total request (storeFreq total j freq state) =
      (configure total request state).map (storeFreq total j freq) := by
  unfold configure configureRcvrs
  rw [configureRate_storeFreq, storeFreq_lastNumRcvrs,
    installRcvrs_storeFreq]
  split
  · split <;> rfl
  · rfl

theorem configureWith_storeFrame
    (total : RcvrTotal)
    (request : Option ConfigRequest)
    (buffer : Ep2Buffer)
    (offset : Nat)
    (state : Ep2State) :
    configureWith total request (storeFrame total buffer offset state) =
      (configureWith total request state).map
        (storeFrame total buffer offset) := by
  cases request with
  | none =>
      rfl
  | some request =>
      unfold storeFrame
      split
      · exact configure_storeFreq total request _ _ state
      · exact Option.map_id'.symm

theorem configureRate_lastRate
    (request : ConfigRequest)
    (state : Ep2State) :
    (configureRate request state).lastRate = request.rateBits := by
  unfold configureRate
  split
  · rfl
  · rename_i sameRate
    exact not_not.mp sameRate

/-- A configured request is what the caches then hold. -/
theorem configure_caches
    {total : RcvrTotal}
    {request : ConfigRequest}
    {state next : Ep2State}
    (configured : configure total request state = some next) :
    next.lastRate = request.rateBits ∧
      next.lastNumRcvrs = request.countBits := by
  have rate := configureRate_lastRate request state
  unfold configure configureRcvrs at configured
  split at configured
  · split at configured
    · cases configured
    · cases configured
      exact ⟨rate, rfl⟩
  · rename_i sameCount
    cases configured
    exact ⟨rate, not_not.mp sameCount⟩

/-- Repeating a request changes nothing. -/
theorem configure_of_caches
    {total : RcvrTotal}
    {request : ConfigRequest}
    {state : Ep2State}
    (sameRate : state.lastRate = request.rateBits)
    (sameCount : state.lastNumRcvrs = request.countBits) :
    configure total request state = some state := by
  simp [configure, configureRcvrs, configureRate, sameRate, sameCount]

theorem configureWith_idempotent
    {total : RcvrTotal}
    {request : Option ConfigRequest}
    {state next : Ep2State}
    (configured : configureWith total request state = some next) :
    configureWith total request next = some next := by
  cases request with
  | none =>
      rfl
  | some request =>
      obtain ⟨sameRate, sameCount⟩ := configure_caches configured
      exact configure_of_caches sameRate sameCount

/-- The request that the config part of the loop installs. -/
def selectedRequest (buffer : Ep2Buffer) : Option ConfigRequest :=
  (frameRequest buffer 0).or (frameRequest buffer 512)

/-- Both passes install the selected request. -/
theorem processEp2Pass_eq
    (total : RcvrTotal)
    (buffer : Ep2Buffer)
    (c : Nat)
    (state : Ep2State) :
    processEp2Pass total buffer c state =
      configureWith total (selectedRequest buffer)
        (tunePass total buffer c state) := by
  unfold processEp2Pass selectedRequest frameRequest
  by_cases first : controlByte buffer 0 = 0
  · simp [first, configureWith]
  · by_cases second : controlByte buffer 512 = 0
    · simp [first, second, configureWith]
    · simp [first, second, configureWith]

theorem tunePass_zero
    (total : RcvrTotal)
    (buffer : Ep2Buffer)
    (state : Ep2State) :
    tunePass total buffer 0 state = storeFrame total buffer 0 state := by
  simp [tunePass, storeFrame]

theorem tunePass_one
    (total : RcvrTotal)
    (buffer : Ep2Buffer)
    (state : Ep2State) :
    tunePass total buffer 1 state = storeFrame total buffer 512 state := by
  simp [tunePass, storeFrame]

/--
The loop installs one request and stores the frequencies of both frames; the
second pass finds its request already installed.
-/
theorem processEp2_eq
    (total : RcvrTotal)
    (state : Ep2State)
    (buffer : Ep2Buffer) :
    processEp2 total state buffer =
      (configureWith total (selectedRequest buffer) state).map
        (fun configured =>
          storeFrame total buffer 512
            (storeFrame total buffer 0 configured)) := by
  unfold processEp2
  rw [processEp2Pass_eq, tunePass_zero, configureWith_storeFrame]
  cases configured :
      configureWith total (selectedRequest buffer) state with
  | none =>
      rfl
  | some next =>
      simp only [Option.map_some, Option.bind_some]
      rw [processEp2Pass_eq, tunePass_one, configureWith_storeFrame,
        configureWith_storeFrame, configureWith_idempotent configured]
      rfl

/-! ## The configuration that a request stands for -/

/-- The derived globals are those of `request` with `total` real receivers. -/
structure Installed
    (total : RcvrTotal)
    (request : ConfigRequest)
    (state : Ep2State) : Prop where
  active :
    state.activeNumRcvrs = min request.numRcvrs total.count
  copies :
    state.numCopyRcvrs = request.numRcvrs - state.activeNumRcvrs
  nsamps :
    state.nsampsPacket = nsampsPacket (state.activeNumRcvrs - 1)
  offset1 :
    state.frameOffset1 = frameOffset1 (state.activeNumRcvrs - 1)
  offset2 :
    state.frameOffset2 = frameOffset2 (state.activeNumRcvrs - 1)
  mask :
    state.rcvrsMask = 2 ^ state.activeNumRcvrs - 1
  enabled :
    ∀ i, i < state.activeNumRcvrs → state.rcvrMask i = 1 <<< i
  disabled :
    ∀ i, state.activeNumRcvrs ≤ i → i < total.count → state.rcvrMask i = 0
  copied :
    ∀ j, state.activeNumRcvrs ≤ j → j < request.numRcvrs →
      state.copyRcvr j = j
  real :
    ∀ j, j < total.count → state.copyRcvr j ≠ j
  rate :
    state.outputRate = request.rate

namespace Installed

/-- The receivers of a frame are the active ones and the copies. -/
theorem active_add_copies
    {total : RcvrTotal}
    {request : ConfigRequest}
    {state : Ep2State}
    (installed : Installed total request state) :
    state.activeNumRcvrs + state.numCopyRcvrs = request.numRcvrs := by
  have active := installed.active
  have copies := installed.copies
  omega

/-- A configuration stands for one request only. -/
theorem request_unique
    {total : RcvrTotal}
    {first second : ConfigRequest}
    {state other : Ep2State}
    (installedFirst : Installed total first state)
    (installedSecond : Installed total second other)
    (sameActive : state.activeNumRcvrs = other.activeNumRcvrs)
    (sameCopies : state.numCopyRcvrs = other.numCopyRcvrs)
    (sameRate : state.outputRate = other.outputRate) :
    first = second := by
  apply ConfigRequest.eq_of_numRcvrs_of_rate
  · rw [← installedFirst.active_add_copies,
      ← installedSecond.active_add_copies, sameActive, sameCopies]
  · rw [← installedFirst.rate, ← installedSecond.rate, sameRate]

end Installed

/--
The abstraction relation: the globals are those of `request`, the two cached
fields hold its bits, and the program has not stopped on it.
-/
structure Coherent
    (total : RcvrTotal)
    (request : ConfigRequest)
    (state : Ep2State) : Prop where
  installed : Installed total request state
  lastRate : state.lastRate = request.rateBits
  lastNumRcvrs : state.lastNumRcvrs = request.countBits
  supported : request.numRcvrs ≤ maxRcvrs

namespace Coherent

theorem initial (total : RcvrTotal) :
    Coherent total .initial .initial where
  installed := {
    active := by
      have pos := total.pos
      simp only [ConfigRequest.initial_numRcvrs, Ep2State.initial]
      omega
    copies := rfl
    nsamps := rfl
    offset1 := rfl
    offset2 := rfl
    mask := rfl
    enabled := by
      intro i below
      have first : i = 0 := Nat.lt_one_iff.mp below
      subst first
      rfl
    disabled := by
      intro i above _
      have positive : i ≠ 0 := Nat.pos_iff_ne_zero.mp above
      simp [Ep2State.initial, positive]
    copied := by
      intro j above below
      simp only [ConfigRequest.initial_numRcvrs] at below
      have positive : 1 ≤ j := above
      omega
    real := by
      intro j _
      simp only [Ep2State.initial]
      omega
    rate := rfl
  }
  lastRate := rfl
  lastNumRcvrs := rfl
  supported := by decide

/-- The configuration does not depend on the stored frequencies. -/
theorem withFreqs
    {total : RcvrTotal}
    {request : ConfigRequest}
    {state : Ep2State}
    (coherent : Coherent total request state)
    (newFreq lastFreq : Nat → BitVec 32) :
    Coherent total request
      { state with newFreq := newFreq, lastFreq := lastFreq } where
  installed := { coherent.installed with }
  lastRate := coherent.lastRate
  lastNumRcvrs := coherent.lastNumRcvrs
  supported := coherent.supported

/-- Storing the frequency of a frame keeps the configuration. -/
theorem storeFrame
    {total : RcvrTotal}
    {request : ConfigRequest}
    {state : Ep2State}
    (coherent : Coherent total request state)
    (buffer : Ep2Buffer)
    (offset : Nat) :
    Coherent total request
      (Hpsdr.storeFrame total buffer offset state) := by
  unfold Hpsdr.storeFrame storeFreq
  split
  · split
    · exact coherent.withFreqs _ _
    · exact coherent
  · exact coherent

/-- After the rate part, the rate is that of the new request. -/
theorem configureRate_fields
    {total : RcvrTotal}
    {previous : ConfigRequest}
    {state : Ep2State}
    (coherent : Coherent total previous state)
    (request : ConfigRequest) :
    configureRate request state =
      { state with
        lastRate := request.rateBits
        outputRate := request.rate } := by
  unfold configureRate
  split
  · rw [request.rateOfBits_eq_rate]
  · have sameBits : state.lastRate = request.rateBits := by
      simp_all
    have sameRate : state.outputRate = request.rate := by
      rw [coherent.installed.rate, ConfigRequest.rate, ConfigRequest.rate,
        ← coherent.lastRate, sameBits]
    cases state
    simp_all

/-- The receiver part installs a new receiver count in any coherent state. -/
theorem installRcvrs
    {total : RcvrTotal}
    {previous request : ConfigRequest}
    {state : Ep2State}
    (coherent : Coherent total previous state)
    (supported : request.numRcvrs ≤ maxRcvrs) :
    Coherent total request
      (Hpsdr.installRcvrs total request.countBits request.numRcvrs
        { state with
          lastRate := request.rateBits
          outputRate := request.rate }) := by
  have requestPos := request.numRcvrs_pos
  have totalPos := total.pos
  have activeEq :
      (if request.numRcvrs ≤ total.count then
        request.numRcvrs
      else
        total.count) = min request.numRcvrs total.count := by
    split <;> omega
  have activePos : 0 < min request.numRcvrs total.count := by
    omega
  have firstMask : state.rcvrMask 0 = 1 := by
    have activeState := coherent.installed.active
    have previousPos := previous.numRcvrs_pos
    simpa using coherent.installed.enabled 0 (by omega)
  refine ⟨{
    active := ?_
    copies := ?_
    nsamps := rfl
    offset1 := rfl
    offset2 := rfl
    mask := ?_
    enabled := ?_
    disabled := ?_
    copied := ?_
    real := ?_
    rate := rfl
  }, rfl, rfl, supported⟩
  · exact activeEq
  · simp only [Hpsdr.installRcvrs]
    split <;> omega
  · simp only [Hpsdr.installRcvrs, activeEq]
    rw [enabledMask_eq_wordOf activePos, FlagWord.wordOf_range]
  · intro i below
    simp only [Hpsdr.installRcvrs, activeEq] at below ⊢
    rw [enableRcvrs_apply activePos]
    by_cases positive : 0 < i
    · simp [positive, below]
    · have first : i = 0 := by omega
      subst first
      simpa using firstMask
  · intro i above belowTotal
    simp only [Hpsdr.installRcvrs, activeEq] at above ⊢
    rw [enableRcvrs_apply activePos, if_neg (by omega),
      if_pos (by omega)]
  · intro j above below
    simp only [Hpsdr.installRcvrs, activeEq] at above ⊢
    have copiesExist : ¬ request.numRcvrs ≤ total.count := by omega
    rw [if_neg copiesExist, if_pos (by omega), markCopies_apply,
      if_pos ⟨above, below⟩]
  · intro j belowTotal
    simp only [Hpsdr.installRcvrs, activeEq]
    by_cases copiesExist : request.numRcvrs ≤ total.count
    · simpa [copiesExist] using coherent.installed.real j belowTotal
    · rw [if_neg copiesExist, if_pos (by omega), markCopies_apply,
        if_neg (by omega)]
      exact coherent.installed.real j belowTotal

/-- A supported request is installed, whatever the configuration was before. -/
theorem configure
    {total : RcvrTotal}
    {previous request : ConfigRequest}
    {state : Ep2State}
    (coherent : Coherent total previous state)
    (supported : request.numRcvrs ≤ maxRcvrs) :
    ∃ next,
      Hpsdr.configure total request state = some next ∧
        Coherent total request next := by
  have rateDone := coherent.configureRate_fields request
  unfold Hpsdr.configure configureRcvrs
  rw [rateDone]
  by_cases sameBits : state.lastNumRcvrs = request.countBits
  · have sameCount : previous.numRcvrs = request.numRcvrs := by
      rw [ConfigRequest.numRcvrs, ConfigRequest.numRcvrs,
        ← coherent.lastNumRcvrs, sameBits]
    refine ⟨
      { state with
        lastRate := request.rateBits
        outputRate := request.rate },
      by simp [sameBits],
      { coherent.installed with
        active := by
          rw [← sameCount]
          exact coherent.installed.active
        copies := by
          rw [← sameCount]
          exact coherent.installed.copies
        copied := by
          rw [← sameCount]
          exact coherent.installed.copied
        rate := rfl },
      rfl, sameBits, supported⟩
  · refine ⟨_, ?_, coherent.installRcvrs supported⟩
    simp [sameBits, Nat.not_lt.mpr supported]

/-- A request for too many receivers ends the program. -/
theorem configure_exits
    {total : RcvrTotal}
    {previous request : ConfigRequest}
    {state : Ep2State}
    (coherent : Coherent total previous state)
    (unsupported : maxRcvrs < request.numRcvrs) :
    Hpsdr.configure total request state = none := by
  have differs : state.lastNumRcvrs ≠ request.countBits := by
    intro sameBits
    have sameCount : previous.numRcvrs = request.numRcvrs := by
      rw [ConfigRequest.numRcvrs, ConfigRequest.numRcvrs,
        ← coherent.lastNumRcvrs, sameBits]
    have supported := coherent.supported
    omega
  unfold Hpsdr.configure configureRcvrs
  rw [coherent.configureRate_fields request]
  simp [differs, unsupported]

end Coherent

/-! ## Runs of packets -/

/-- Frequencies aside, a packet moves the program to the selected request. -/
theorem Coherent.processEp2
    {total : RcvrTotal}
    {previous : ConfigRequest}
    {state : Ep2State}
    (coherent : Coherent total previous state)
    {buffer : Ep2Buffer}
    (supported :
      ∀ request ∈ selectedRequest buffer, request.numRcvrs ≤ maxRcvrs) :
    ∃ next,
      Hpsdr.processEp2 total state buffer = some next ∧
        Coherent total ((selectedRequest buffer).getD previous) next := by
  have configured :
      ∃ middle,
        configureWith total (selectedRequest buffer) state = some middle ∧
          Coherent total ((selectedRequest buffer).getD previous) middle := by
    cases selected : selectedRequest buffer with
    | none =>
        exact ⟨state, rfl, coherent⟩
    | some request =>
        exact coherent.configure (supported request selected)
  obtain ⟨middle, reached, middleCoherent⟩ := configured
  refine ⟨_, ?_, (middleCoherent.storeFrame buffer 0).storeFrame buffer 512⟩
  rw [processEp2_eq, reached]
  rfl

/-- A packet that the program survives selects a supported request. -/
theorem Coherent.supported_of_processEp2
    {total : RcvrTotal}
    {previous : ConfigRequest}
    {state next : Ep2State}
    (coherent : Coherent total previous state)
    {buffer : Ep2Buffer}
    (survived : Hpsdr.processEp2 total state buffer = some next) :
    ∀ request ∈ selectedRequest buffer, request.numRcvrs ≤ maxRcvrs := by
  intro request selected
  by_contra unsupported
  rw [processEp2_eq, Option.mem_def.mp selected, configureWith,
    coherent.configure_exits (Nat.lt_of_not_le unsupported)] at survived
  cases survived

/-- A packet that the program survives moves it to the selected request. -/
theorem Coherent.of_processEp2
    {total : RcvrTotal}
    {previous : ConfigRequest}
    {state next : Ep2State}
    (coherent : Coherent total previous state)
    {buffer : Ep2Buffer}
    (survived : Hpsdr.processEp2 total state buffer = some next) :
    Coherent total ((selectedRequest buffer).getD previous) next := by
  obtain ⟨found, reached, foundCoherent⟩ :=
    coherent.processEp2 (coherent.supported_of_processEp2 survived)
  have same : found = next := by
    rw [survived] at reached
    exact (Option.some.inj reached).symm
  rw [← same]
  exact foundCoherent

/-- The request that the program holds after a run of packets. -/
def heldRequest (packets : List Ep2Buffer) : ConfigRequest :=
  packets.foldl
    (fun request buffer => (selectedRequest buffer).getD request) .initial

@[simp] theorem heldRequest_concat
    (packets : List Ep2Buffer)
    (buffer : Ep2Buffer) :
    heldRequest (packets ++ [buffer]) =
      (selectedRequest buffer).getD (heldRequest packets) := by
  simp [heldRequest, List.foldl_append]

/-- Every run of packets keeps the globals coherent with the held request. -/
theorem runEp2_coherent
    {total : RcvrTotal}
    {packets : List Ep2Buffer}
    {state : Ep2State}
    (reached : runEp2 total .initial packets = some state) :
    Coherent total (heldRequest packets) state := by
  refine PartialRun.invariant_history
    (fun history state => Coherent total (heldRequest history) state)
    (Coherent.initial total) ?_ reached
  intro history state buffer next coherent taken
  rw [heldRequest_concat]
  exact coherent.of_processEp2 taken

end LibRtlSdr.Hpsdr
