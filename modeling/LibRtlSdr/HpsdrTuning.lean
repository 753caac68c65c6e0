import LibRtlSdr.HpsdrEp2Requests

namespace LibRtlSdr.Hpsdr

/-!
# From a received frequency to the dongle

`process_ep2` leaves the frequency of a frame in `new_freq` and remembers it in
`last_freq`, so that a repeated one is dropped.  Each iteration of a receiver's
sender loop takes what is pending in `new_freq`, asks the dongle for it, and
clears it.  One value is never taken: 110 MHz.
-/

/-- The settings that the request to a dongle depends on. -/
structure TuneConfig where
  freqOffset : Nat → BitVec 32
  useUp : Nat → Bool
  upXtal : BitVec 32

/-- The centre frequency that dongle `rcvr` is asked for when `freq` is pending. -/
def TuneConfig.centerFreq
    (config : TuneConfig)
    (rcvr : Nat)
    (freq : BitVec 32) :
    BitVec 32 :=
  freq + config.freqOffset rcvr +
    (if config.useUp rcvr then config.upXtal else 0)

/-- The pending frequency that the sender loop leaves alone. -/
def untakenFreq : BitVec 32 := 110000000

/-- The globals of the packet handler, and what the sender loops did with them. -/
structure TuneState where
  ep2 : Ep2State
  /-- `mcb.rcb[i].curr_freq`. -/
  currFreq : Nat → BitVec 32
  /-- The arguments of the calls of `rtlsdr_set_center_freq`, dongle by dongle. -/
  requests : Nat → List (BitVec 32)

/-- After the set-up in `main`: no frequency was received or asked for. -/
def TuneState.initial : TuneState where
  ep2 := .initial
  currFreq := fun _ => 0
  requests := fun _ => []

/--
The end of an iteration of the sender loop of `rcvr`.  Whether the dongle
accepts the frequency makes no difference but for a warning.
-/
def tuneIteration
    (config : TuneConfig)
    (rcvr : Nat)
    (state : TuneState) :
    TuneState :=
  let newFreq := state.ep2.newFreq rcvr
  if newFreq ≠ 0 ∧ newFreq ≠ untakenFreq then
    { ep2 := { state.ep2 with
        newFreq := Function.update state.ep2.newFreq rcvr 0 }
      currFreq := Function.update state.currFreq rcvr newFreq
      requests := Function.update state.requests rcvr
        (state.requests rcvr ++ [config.centerFreq rcvr newFreq]) }
  else
    state

/-- A pending frequency is asked for and cleared. -/
theorem tuneIteration_of_taken
    {config : TuneConfig}
    {rcvr : Nat}
    {state : TuneState}
    (taken :
      state.ep2.newFreq rcvr ≠ 0 ∧
        state.ep2.newFreq rcvr ≠ untakenFreq) :
    tuneIteration config rcvr state =
      { ep2 := { state.ep2 with
          newFreq := Function.update state.ep2.newFreq rcvr 0 }
        currFreq :=
          Function.update state.currFreq rcvr (state.ep2.newFreq rcvr)
        requests := Function.update state.requests rcvr
          (state.requests rcvr ++
            [config.centerFreq rcvr (state.ep2.newFreq rcvr)]) } :=
  if_pos taken

/-- Otherwise the iteration does nothing here. -/
theorem tuneIteration_of_not_taken
    {config : TuneConfig}
    {rcvr : Nat}
    {state : TuneState}
    (notTaken :
      ¬ (state.ep2.newFreq rcvr ≠ 0 ∧
        state.ep2.newFreq rcvr ≠ untakenFreq)) :
    tuneIteration config rcvr state = state :=
  if_neg notTaken

/-- What happens to the frequencies: a packet, or the end of an iteration. -/
inductive TuneAction where
  | ep2 (buffer : Ep2Buffer)
  | iteration (rcvr : Nat)

/-- One step; there is no state after a packet that ends the program. -/
def tuneStep
    (total : RcvrTotal)
    (config : TuneConfig)
    (state : TuneState) :
    TuneAction → Option TuneState
  | .ep2 buffer =>
      (processEp2 total state.ep2 buffer).map
        (fun ep2 => { state with ep2 := ep2 })
  | .iteration rcvr =>
      some (tuneIteration config rcvr state)

/-! ## The frequencies of one receiver -/

/-- `new_freq` and `last_freq` of one receiver. -/
structure RcvrFreq where
  newFreq : BitVec 32
  lastFreq : BitVec 32

namespace RcvrFreq

/-- A frequency that differs from the last one is pending from then on. -/
def store (pair : RcvrFreq) (freq : BitVec 32) : RcvrFreq :=
  if pair.lastFreq ≠ freq then
    ⟨freq, freq⟩
  else
    pair

/-- The last frequency is dropped. -/
theorem store_of_eq
    {pair : RcvrFreq}
    {freq : BitVec 32}
    (same : pair.lastFreq = freq) :
    pair.store freq = pair :=
  if_neg (not_not.mpr same)

/-- Any other frequency is stored. -/
theorem store_of_ne
    {pair : RcvrFreq}
    {freq : BitVec 32}
    (differs : pair.lastFreq ≠ freq) :
    pair.store freq = ⟨freq, freq⟩ :=
  if_pos differs

/-- The last of the stored frequencies is remembered. -/
theorem lastFreq_foldl_store
    (pair : RcvrFreq)
    (freqs : List (BitVec 32)) :
    (freqs.foldl store pair).lastFreq = freqs.getLast?.getD pair.lastFreq := by
  induction freqs using List.reverseRecOn with
  | nil =>
      rfl
  | append_singleton earlier freq inductionHypothesis =>
      rw [List.foldl_append, List.foldl_cons, List.foldl_nil,
        List.getLast?_concat, Option.getD_some]
      by_cases same : (earlier.foldl store pair).lastFreq = freq
      · rw [store_of_eq same]
        exact same
      · rw [store_of_ne same]

/-- What was stored is pending, unless nothing but the last frequency was. -/
theorem foldl_store_cases
    (pair : RcvrFreq)
    (freqs : List (BitVec 32)) :
    freqs.foldl store pair = pair ∨
      (freqs.foldl store pair).newFreq =
        (freqs.foldl store pair).lastFreq := by
  induction freqs using List.reverseRecOn with
  | nil =>
      exact .inl rfl
  | append_singleton earlier freq inductionHypothesis =>
      rw [List.foldl_append, List.foldl_cons, List.foldl_nil]
      by_cases same : (earlier.foldl store pair).lastFreq = freq
      · rw [store_of_eq same]
        exact inductionHypothesis
      · rw [store_of_ne same]
        exact .inr rfl

end RcvrFreq

/-- The pair of a receiver. -/
def Ep2State.rcvrFreq (state : Ep2State) (rcvr : Nat) : RcvrFreq :=
  ⟨state.newFreq rcvr, state.lastFreq rcvr⟩

/-- The frequency that the frame at `offset` carries for `rcvr`; zero is none. -/
def carriedFreq?
    (total : RcvrTotal)
    (rcvr : Nat)
    (buffer : Ep2Buffer)
    (offset : Nat) :
    Option (BitVec 32) :=
  if FreqAddress total (controlByte buffer offset) ∧
      (controlByte buffer offset - 4) / 2 = rcvr ∧
      freqWord buffer offset ≠ 0 then
    some (freqWord buffer offset)
  else
    none

/-- The frequencies that a packet carries for `rcvr`, in the order of its frames. -/
def carriedFreqs
    (total : RcvrTotal)
    (rcvr : Nat)
    (buffer : Ep2Buffer) :
    List (BitVec 32) :=
  (carriedFreq? total rcvr buffer 0).toList ++
    (carriedFreq? total rcvr buffer 512).toList

/-- The carried frequencies are not zero. -/
theorem ne_zero_of_mem_carriedFreqs
    {total : RcvrTotal}
    {rcvr : Nat}
    {buffer : Ep2Buffer}
    {freq : BitVec 32}
    (member : freq ∈ carriedFreqs total rcvr buffer) :
    freq ≠ 0 := by
  simp only [carriedFreqs, carriedFreq?, List.mem_append,
    Option.mem_toList, Option.ite_none_right_eq_some,
    Option.some.injEq] at member
  rcases member with ⟨carries, isFreq⟩ | ⟨carries, isFreq⟩
  · exact isFreq ▸ carries.2.2
  · exact isFreq ▸ carries.2.2

/-- Every receiver that exists has an address of its own. -/
theorem lt_of_freqAddress
    {total : RcvrTotal}
    {c0 : Nat}
    (address : FreqAddress total c0) :
    (c0 - 4) / 2 < total.count := by
  have pos := total.pos
  have upper := address.2
  omega

/-- A frequency is stored for the receiver it is meant for. -/
theorem storeFreq_rcvrFreq_self
    {total : RcvrTotal}
    {rcvr : Nat}
    (real : rcvr < total.count)
    {freq : BitVec 32}
    (notZero : freq ≠ 0)
    (state : Ep2State) :
    (storeFreq total rcvr freq state).rcvrFreq rcvr =
      (state.rcvrFreq rcvr).store freq := by
  by_cases same : state.lastFreq rcvr = freq
  · rw [storeFreq, if_neg (fun differs => differs.1 same),
      RcvrFreq.store_of_eq same]
  · rw [storeFreq, if_pos ⟨same, Ne.symm notZero⟩, if_pos real,
      RcvrFreq.store_of_ne same]
    simp [Ep2State.rcvrFreq]

/-- Storing a frequency leaves the other receivers alone. -/
theorem storeFreq_rcvrFreq_of_ne
    (total : RcvrTotal)
    {rcvr other : Nat}
    (differs : rcvr ≠ other)
    (freq : BitVec 32)
    (state : Ep2State) :
    (storeFreq total other freq state).rcvrFreq rcvr =
      state.rcvrFreq rcvr := by
  unfold storeFreq
  split
  · split <;> simp [Ep2State.rcvrFreq, differs]
  · rfl

/-- A frame stores what it carries for a receiver, and nothing else. -/
theorem storeFrame_rcvrFreq
    (total : RcvrTotal)
    (rcvr : Nat)
    (buffer : Ep2Buffer)
    (offset : Nat)
    (state : Ep2State) :
    (storeFrame total buffer offset state).rcvrFreq rcvr =
      (carriedFreq? total rcvr buffer offset).toList.foldl
        RcvrFreq.store (state.rcvrFreq rcvr) := by
  by_cases address : FreqAddress total (controlByte buffer offset)
  · rw [storeFrame, if_pos address]
    by_cases own : (controlByte buffer offset - 4) / 2 = rcvr
    · subst own
      by_cases zero : freqWord buffer offset = 0
      · rw [carriedFreq?, if_neg (fun carries => carries.2.2 zero),
          storeFreq, if_neg (fun differs => differs.2 zero.symm)]
        rfl
      · rw [carriedFreq?, if_pos ⟨address, rfl, zero⟩]
        exact storeFreq_rcvrFreq_self (lt_of_freqAddress address)
          zero state
    · rw [carriedFreq?, if_neg (fun carries => own carries.2.1)]
      exact storeFreq_rcvrFreq_of_ne total (Ne.symm own) _ state
  · rw [storeFrame, if_neg address, carriedFreq?,
      if_neg (fun carries => address carries.1)]
    rfl

/-- Installing a configuration leaves the frequencies alone. -/
theorem configureWith_rcvrFreq
    {total : RcvrTotal}
    {request : Option ConfigRequest}
    {state next : Ep2State}
    (configured : configureWith total request state = some next)
    (rcvr : Nat) :
    next.rcvrFreq rcvr = state.rcvrFreq rcvr := by
  cases request with
  | none =>
      cases configured
      rfl
  | some request =>
      simp only [configureWith, configure, configureRcvrs,
        configureRate] at configured
      split_ifs at configured <;> cases configured <;> rfl

/-- A packet stores the frequencies it carries for a receiver, in order. -/
theorem processEp2_rcvrFreq
    {total : RcvrTotal}
    {state next : Ep2State}
    {buffer : Ep2Buffer}
    (taken : processEp2 total state buffer = some next)
    (rcvr : Nat) :
    next.rcvrFreq rcvr =
      (carriedFreqs total rcvr buffer).foldl
        RcvrFreq.store (state.rcvrFreq rcvr) := by
  rw [processEp2_eq, Option.map_eq_some_iff] at taken
  obtain ⟨configured, isConfigured, isNext⟩ := taken
  rw [← isNext, storeFrame_rcvrFreq, storeFrame_rcvrFreq,
    configureWith_rcvrFreq isConfigured, carriedFreqs, List.foldl_append]

/-! ## What a dongle was asked for last -/

/-- The frequencies that an action carries for `rcvr`. -/
def TuneAction.carriedFreqs
    (total : RcvrTotal)
    (rcvr : Nat) :
    TuneAction → List (BitVec 32)
  | .ep2 buffer =>
      Hpsdr.carriedFreqs total rcvr buffer
  | .iteration _ =>
      []

/-- The frequency carried last for `rcvr`. -/
def lastCarried?
    (total : RcvrTotal)
    (rcvr : Nat)
    (actions : List TuneAction) :
    Option (BitVec 32) :=
  (actions.flatMap (TuneAction.carriedFreqs total rcvr)).getLast?

theorem lastCarried?_concat
    (total : RcvrTotal)
    (rcvr : Nat)
    (actions : List TuneAction)
    (action : TuneAction) :
    lastCarried? total rcvr (actions ++ [action]) =
      (action.carriedFreqs total rcvr).getLast?.or
        (lastCarried? total rcvr actions) := by
  simp [lastCarried?, List.flatMap_append, List.getLast?_append]

/-- No frequency is pending, and the dongle was last asked for the last one. -/
def Tuned
    (config : TuneConfig)
    (rcvr : Nat)
    (state : TuneState) : Prop :=
  state.ep2.newFreq rcvr = 0 ∧
    (state.requests rcvr).getLast? =
      some (config.centerFreq rcvr (state.ep2.lastFreq rcvr))

/--
The frequency carried last is remembered.  It is pending, or nothing is and the
dongle was asked for it; the value that is never taken stays pending.
-/
structure FreqHandled
    (total : RcvrTotal)
    (config : TuneConfig)
    (rcvr : Nat)
    (history : List TuneAction)
    (state : TuneState) : Prop where
  remembered :
    state.ep2.lastFreq rcvr = (lastCarried? total rcvr history).getD 0
  pendingOrAsked :
    state.ep2.newFreq rcvr = state.ep2.lastFreq rcvr ∨
      state.ep2.newFreq rcvr = 0 ∧
        state.ep2.lastFreq rcvr ≠ untakenFreq ∧
        (state.requests rcvr).getLast? =
          (lastCarried? total rcvr history).map (config.centerFreq rcvr)

theorem FreqHandled.initial
    (total : RcvrTotal)
    (config : TuneConfig)
    (rcvr : Nat) :
    FreqHandled total config rcvr [] TuneState.initial where
  remembered := rfl
  pendingOrAsked := .inl rfl

/-- A packet remembers its last frequency, and leaves it pending if it is new. -/
theorem FreqHandled.processEp2
    {total : RcvrTotal}
    {config : TuneConfig}
    {rcvr : Nat}
    {history : List TuneAction}
    {state : TuneState}
    (handled : FreqHandled total config rcvr history state)
    {buffer : Ep2Buffer}
    {ep2 : Ep2State}
    (taken : Hpsdr.processEp2 total state.ep2 buffer = some ep2) :
    FreqHandled total config rcvr (history ++ [.ep2 buffer])
      { state with ep2 := ep2 } := by
  have stored := processEp2_rcvrFreq taken rcvr
  have lastStored :
      ep2.lastFreq rcvr =
        (carriedFreqs total rcvr buffer).getLast?.getD
          (state.ep2.lastFreq rcvr) :=
    (congrArg RcvrFreq.lastFreq stored).trans
      (RcvrFreq.lastFreq_foldl_store _ _)
  have carriedNow :
      lastCarried? total rcvr (history ++ [.ep2 buffer]) =
        (carriedFreqs total rcvr buffer).getLast?.or
          (lastCarried? total rcvr history) :=
    lastCarried?_concat total rcvr history (.ep2 buffer)
  have remembered :
      ep2.lastFreq rcvr =
        (lastCarried? total rcvr (history ++ [.ep2 buffer])).getD 0 := by
    rw [lastStored, carriedNow, handled.remembered]
    cases (carriedFreqs total rcvr buffer).getLast? <;> rfl
  refine ⟨remembered, ?_⟩
  rcases RcvrFreq.foldl_store_cases (state.ep2.rcvrFreq rcvr)
      (carriedFreqs total rcvr buffer) with unchanged | pending
  · -- nothing was stored: the packet repeats the last frequency or has none
    rw [unchanged] at stored
    have sameNew : ep2.newFreq rcvr = state.ep2.newFreq rcvr :=
      congrArg RcvrFreq.newFreq stored
    have sameLast : ep2.lastFreq rcvr = state.ep2.lastFreq rcvr :=
      congrArg RcvrFreq.lastFreq stored
    have sameCarried :
        lastCarried? total rcvr (history ++ [.ep2 buffer]) =
          lastCarried? total rcvr history := by
      rw [carriedNow]
      cases carried : (carriedFreqs total rcvr buffer).getLast? with
      | none =>
          rfl
      | some freq =>
          have notZero : freq ≠ 0 :=
            ne_zero_of_mem_carriedFreqs (List.mem_of_getLast? carried)
          rw [carried, Option.getD_some, sameLast,
            handled.remembered] at lastStored
          cases before : lastCarried? total rcvr history with
          | none =>
              rw [before] at lastStored
              exact absurd lastStored.symm notZero
          | some last =>
              rw [before, Option.getD_some] at lastStored
              rw [lastStored]
              rfl
    rw [sameCarried]
    rcases handled.pendingOrAsked with isPending | ⟨cleared, taken, asked⟩
    · exact .inl (sameNew.trans (isPending.trans sameLast.symm))
    · refine .inr ⟨sameNew.trans cleared, ?_, asked⟩
      intro untaken
      exact taken (sameLast.symm.trans untaken)
  · left
    rw [← stored] at pending
    exact pending

/-- An iteration takes what is pending, other than the one value. -/
theorem FreqHandled.tuneIteration
    {total : RcvrTotal}
    {config : TuneConfig}
    {rcvr : Nat}
    {history : List TuneAction}
    {state : TuneState}
    (handled : FreqHandled total config rcvr history state)
    (other : Nat) :
    FreqHandled total config rcvr (history ++ [.iteration other])
      (Hpsdr.tuneIteration config other state) := by
  have carriedNow :
      lastCarried? total rcvr (history ++ [.iteration other]) =
        lastCarried? total rcvr history :=
    lastCarried?_concat total rcvr history (.iteration other)
  by_cases taken :
      state.ep2.newFreq other ≠ 0 ∧ state.ep2.newFreq other ≠ untakenFreq
  · rw [tuneIteration_of_taken taken]
    refine ⟨carriedNow ▸ handled.remembered, ?_⟩
    rw [carriedNow]
    by_cases own : rcvr = other
    · subst own
      have pending : state.ep2.newFreq rcvr = state.ep2.lastFreq rcvr := by
        rcases handled.pendingOrAsked with isPending | ⟨cleared, _, _⟩
        · exact isPending
        · exact absurd cleared taken.1
      refine .inr ⟨Function.update_self .., pending ▸ taken.2, ?_⟩
      have remembered := handled.remembered
      rw [← pending] at remembered
      cases carried : lastCarried? total rcvr history with
      | none =>
          rw [carried] at remembered
          exact absurd remembered taken.1
      | some freq =>
          rw [carried, Option.getD_some] at remembered
          simp [remembered]
    · simpa [own] using handled.pendingOrAsked
  · rw [tuneIteration_of_not_taken taken]
    exact ⟨carriedNow ▸ handled.remembered,
      carriedNow ▸ handled.pendingOrAsked⟩

/-- In every run the frequency carried last is pending or was asked for. -/
theorem FreqHandled.run
    (total : RcvrTotal)
    (config : TuneConfig)
    (rcvr : Nat)
    {actions : List TuneAction}
    {state : TuneState}
    (reached :
      PartialRun.run (tuneStep total config) .initial actions =
        some state) :
    FreqHandled total config rcvr actions state := by
  refine PartialRun.invariant_history (FreqHandled total config rcvr)
    (FreqHandled.initial total config rcvr) ?_ reached
  intro history state action next handled taken
  cases action with
  | ep2 buffer =>
      obtain ⟨ep2, handledPacket, isNext⟩ := Option.map_eq_some_iff.mp taken
      rw [← isNext]
      exact handled.processEp2 handledPacket
  | iteration other =>
      cases taken
      exact handled.tuneIteration other

/--
After an iteration of a receiver for which some frequency was carried before:
the last of them is remembered, and the dongle is tuned to it exactly when it is
not the value that is never taken.
-/
theorem tuned_after_iteration_iff
    (total : RcvrTotal)
    (config : TuneConfig)
    (rcvr : Nat)
    {actions : List TuneAction}
    {freq : BitVec 32}
    (carried : lastCarried? total rcvr actions = some freq)
    {state : TuneState}
    (reached :
      PartialRun.run (tuneStep total config) .initial
        (actions ++ [.iteration rcvr]) = some state) :
    state.ep2.lastFreq rcvr = freq ∧
      (Tuned config rcvr state ↔ freq ≠ untakenFreq) := by
  obtain ⟨before, reachedBefore, taken⟩ :=
    PartialRun.run_concat_eq_some.mp reached
  cases taken
  have handled := FreqHandled.run total config rcvr reachedBefore
  have remembered := handled.remembered
  rw [carried, Option.getD_some] at remembered
  have notZero : freq ≠ 0 := by
    obtain ⟨action, _, member⟩ :=
      List.mem_flatMap.mp (List.mem_of_getLast? carried)
    cases action with
    | ep2 buffer =>
        exact ne_zero_of_mem_carriedFreqs member
    | iteration other =>
        cases member
  rcases handled.pendingOrAsked with isPending | ⟨cleared, canTake, asked⟩
  · rw [remembered] at isPending
    by_cases untaken : freq = untakenFreq
    · have skipped :
          tuneIteration config rcvr before = before :=
        tuneIteration_of_not_taken
          (fun taken => taken.2 (isPending.trans untaken))
      rw [skipped]
      refine ⟨remembered, ?_⟩
      exact iff_of_false
        (fun tuned => notZero (isPending.symm.trans tuned.1))
        (not_not.mpr untaken)
    · rw [tuneIteration_of_taken
        ⟨isPending ▸ notZero, isPending ▸ untaken⟩]
      refine ⟨remembered, ?_⟩
      simp [Tuned, untaken, isPending, remembered]
  · rw [remembered] at canTake
    rw [tuneIteration_of_not_taken (fun taken => taken.1 cleared)]
    refine ⟨remembered, iff_of_true ⟨cleared, ?_⟩ canTake⟩
    rw [asked, carried, remembered]
    rfl

/-- No offset and no upconverter. -/
def plainConfig : TuneConfig where
  freqOffset := fun _ => 0
  useUp := fun _ => false
  upXtal := 0

/-- A packet whose first frame carries a frequency for the first receiver. -/
def freqPacket (freq : BitVec 32) : Ep2Buffer :=
  fun position =>
    if position = 11 then
      4
    else if position = 12 then
      ⟨(freq >>> 24).setWidth 8⟩
    else if position = 13 then
      ⟨(freq >>> 16).setWidth 8⟩
    else if position = 14 then
      ⟨(freq >>> 8).setWidth 8⟩
    else if position = 15 then
      ⟨freq.setWidth 8⟩
    else if position = 523 then
      2
    else
      0

/-- One packet with a frequency, and then an iteration, from the start. -/
def freqRun (freq : BitVec 32) : Option TuneState :=
  PartialRun.run (tuneStep oneRcvr plainConfig) .initial
    ([.ep2 (freqPacket freq)] ++ [.iteration 0])

theorem freqRun_7100000_isSome : (freqRun 7100000).isSome = true := by
  decide

/-- A packet with 7.1 MHz and an iteration tune the dongle. -/
theorem tuned_after_iteration_7100000 :
    ∃ state,
      freqRun 7100000 = some state ∧
        state.ep2.lastFreq 0 = 7100000 ∧
        (Tuned plainConfig 0 state ↔ (7100000 : BitVec 32) ≠ untakenFreq) := by
  obtain ⟨state, reached⟩ :=
    Option.isSome_iff_exists.mp freqRun_7100000_isSome
  exact ⟨state, reached,
    tuned_after_iteration_iff oneRcvr plainConfig 0 (by decide) reached⟩

/-- A packet with 110 MHz and an iteration leave it pending; nothing is asked for. -/
theorem freqRun_untakenFreq :
    (freqRun untakenFreq).map
        (fun state => (state.ep2.newFreq 0, state.requests 0)) =
      some (untakenFreq, []) := by
  decide

/-- The dongle is not tuned after a packet with 110 MHz and an iteration. -/
theorem not_tuned_after_iteration_untakenFreq :
    lastCarried? oneRcvr 0 [.ep2 (freqPacket untakenFreq)] =
        some untakenFreq ∧
      untakenFreq ≠ 0 ∧
      ∃ state,
        freqRun untakenFreq = some state ∧
          ¬ Tuned plainConfig 0 state := by
  refine ⟨by decide, by decide, ?_⟩
  obtain ⟨state, reached, observed⟩ :=
    Option.map_eq_some_iff.mp freqRun_untakenFreq
  rw [Prod.mk.injEq] at observed
  refine ⟨state, reached, ?_⟩
  rintro ⟨cleared, _⟩
  rw [observed.1] at cleared
  exact absurd cleared (by decide)

end LibRtlSdr.Hpsdr
