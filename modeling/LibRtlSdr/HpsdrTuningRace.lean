import LibRtlSdr.HpsdrTuning

namespace LibRtlSdr.Hpsdr

/-!
# Packet handler and sender loop, access by access

`new_freq` and `last_freq` are plain variables that the thread of `process_ep2`
and the thread of the sender loop use without a lock.  Here every access of one
of them, for one receiver, is a step of its own, and the two threads take their
steps in any order.  A frequency that is stored after the sender loop has read
the one it is going to ask for, and before it clears `new_freq`, is cleared
unread.
-/

/-- Where `process_ep2` stands with the frequencies of its packet. -/
inductive Ep2TunePc where
  /-- No packet is being handled, or its frequencies are done. -/
  | idle
  /-- About to compare the first of `freqs` with `last_freq`. -/
  | compare (freq : BitVec 32) (rest : List (BitVec 32))
  /-- About to store `freq` into `new_freq`. -/
  | store (freq : BitVec 32) (rest : List (BitVec 32))
  /-- About to store `freq` into `last_freq`. -/
  | remember (freq : BitVec 32) (rest : List (BitVec 32))
  deriving DecidableEq

/-- Go on with the frequencies that are left. -/
def Ep2TunePc.next : List (BitVec 32) → Ep2TunePc
  | [] => .idle
  | freq :: rest => .compare freq rest

/-- The frequencies of the packet that are not done. -/
def Ep2TunePc.freqs : Ep2TunePc → List (BitVec 32)
  | .idle => []
  | .compare freq rest => freq :: rest
  | .store freq rest => freq :: rest
  | .remember freq rest => freq :: rest

@[simp] theorem Ep2TunePc.freqs_next (freqs : List (BitVec 32)) :
    (next freqs).freqs = freqs := by
  cases freqs <;> rfl

/-- Where the sender loop stands in its last part. -/
inductive SendIqTunePc where
  /-- Elsewhere in the loop, or about to test `new_freq`. -/
  | idle
  /-- Something was pending: about to compare `new_freq` with 110 MHz. -/
  | guard
  /-- About to read the frequency to ask for. -/
  | read
  /-- About to call `rtlsdr_set_center_freq` for the `freq` that was read. -/
  | ask (freq : BitVec 32)
  /-- Asked for `freq`; about to copy `new_freq` to `curr_freq`. -/
  | copy (freq : BitVec 32)
  /-- Asked for `freq`; about to clear `new_freq`. -/
  | clear (freq : BitVec 32)
  deriving DecidableEq

/-- The frequency that the sender loop has read and not yet cleared. -/
def SendIqTunePc.taken? : SendIqTunePc → Option (BitVec 32)
  | .ask freq => some freq
  | .copy freq => some freq
  | .clear freq => some freq
  | _ => none

/-- The variables of one receiver, and where the two threads stand. -/
structure TuneRace where
  newFreq : BitVec 32
  lastFreq : BitVec 32
  currFreq : BitVec 32
  requests : List (BitVec 32)
  ep2Pc : Ep2TunePc
  sendIqPc : SendIqTunePc

/-- One access of `new_freq` or `last_freq`, or the start of a packet. -/
inductive RaceAction where
  | packet (buffer : Ep2Buffer)
  | compare
  | store
  | remember
  | test
  | guard
  | read
  | ask
  | copy
  | clear

/-- Both threads at rest, and nothing received so far. -/
def TuneRace.initial : TuneRace where
  newFreq := 0
  lastFreq := 0
  currFreq := 0
  requests := []
  ep2Pc := .idle
  sendIqPc := .idle

section Race

variable
  (total : RcvrTotal)
  (config : TuneConfig)
  (rcvr : Nat)

/-- One step of one of the threads. -/
def raceStep (race : TuneRace) : RaceAction → Option TuneRace
  | .packet buffer =>
      match race.ep2Pc with
      | .idle =>
          some { race with
            ep2Pc := .next (carriedFreqs total rcvr buffer) }
      | _ => none
  | .compare =>
      match race.ep2Pc with
      | .compare freq rest =>
          some { race with
            ep2Pc :=
              if race.lastFreq ≠ freq then .store freq rest
              else .next rest }
      | _ => none
  | .store =>
      match race.ep2Pc with
      | .store freq rest =>
          some { race with
            newFreq := freq
            ep2Pc := .remember freq rest }
      | _ => none
  | .remember =>
      match race.ep2Pc with
      | .remember freq rest =>
          some { race with
            lastFreq := freq
            ep2Pc := .next rest }
      | _ => none
  | .test =>
      match race.sendIqPc with
      | .idle =>
          some { race with
            sendIqPc := if race.newFreq ≠ 0 then .guard else .idle }
      | _ => none
  | .guard =>
      match race.sendIqPc with
      | .guard =>
          some { race with
            sendIqPc :=
              if race.newFreq ≠ untakenFreq then .read else .idle }
      | _ => none
  | .read =>
      match race.sendIqPc with
      | .read => some { race with sendIqPc := .ask race.newFreq }
      | _ => none
  | .ask =>
      match race.sendIqPc with
      | .ask freq =>
          some { race with
            requests := race.requests ++ [config.centerFreq rcvr freq]
            sendIqPc := .copy freq }
      | _ => none
  | .copy =>
      match race.sendIqPc with
      | .copy freq =>
          some { race with
            currFreq := race.newFreq
            sendIqPc := .clear freq }
      | _ => none
  | .clear =>
      match race.sendIqPc with
      | .clear _ =>
          some { race with
            newFreq := 0
            sendIqPc := .idle }
      | _ => none

/-- The moves of the two threads, one for each access. -/
inductive RaceMove (race : TuneRace) : RaceAction → TuneRace → Prop where
  | packet
      (buffer : Ep2Buffer)
      (stands : race.ep2Pc = .idle) :
      RaceMove race (.packet buffer)
        { race with ep2Pc := .next (carriedFreqs total rcvr buffer) }
  | repeated
      {freq : BitVec 32}
      {rest : List (BitVec 32)}
      (stands : race.ep2Pc = .compare freq rest)
      (same : race.lastFreq = freq) :
      RaceMove race .compare { race with ep2Pc := .next rest }
  | differs
      {freq : BitVec 32}
      {rest : List (BitVec 32)}
      (stands : race.ep2Pc = .compare freq rest)
      (differs : race.lastFreq ≠ freq) :
      RaceMove race .compare { race with ep2Pc := .store freq rest }
  | store
      {freq : BitVec 32}
      {rest : List (BitVec 32)}
      (stands : race.ep2Pc = .store freq rest) :
      RaceMove race .store
        { race with newFreq := freq, ep2Pc := .remember freq rest }
  | remember
      {freq : BitVec 32}
      {rest : List (BitVec 32)}
      (stands : race.ep2Pc = .remember freq rest) :
      RaceMove race .remember
        { race with lastFreq := freq, ep2Pc := .next rest }
  | nothing
      (stands : race.sendIqPc = .idle)
      (none : race.newFreq = 0) :
      RaceMove race .test race
  | pending
      (stands : race.sendIqPc = .idle)
      (some : race.newFreq ≠ 0) :
      RaceMove race .test { race with sendIqPc := .guard }
  | untaken
      (stands : race.sendIqPc = .guard)
      (untaken : race.newFreq = untakenFreq) :
      RaceMove race .guard { race with sendIqPc := .idle }
  | taken
      (stands : race.sendIqPc = .guard)
      (taken : race.newFreq ≠ untakenFreq) :
      RaceMove race .guard { race with sendIqPc := .read }
  | read
      (stands : race.sendIqPc = .read) :
      RaceMove race .read { race with sendIqPc := .ask race.newFreq }
  | ask
      {freq : BitVec 32}
      (stands : race.sendIqPc = .ask freq) :
      RaceMove race .ask
        { race with
          requests := race.requests ++ [config.centerFreq rcvr freq]
          sendIqPc := .copy freq }
  | copy
      {freq : BitVec 32}
      (stands : race.sendIqPc = .copy freq) :
      RaceMove race .copy
        { race with currFreq := race.newFreq, sendIqPc := .clear freq }
  | clear
      {freq : BitVec 32}
      (stands : race.sendIqPc = .clear freq) :
      RaceMove race .clear
        { race with newFreq := 0, sendIqPc := .idle }

variable {total config rcvr}
variable {race next : TuneRace} {action : RaceAction}

/-- A step is one of the moves. -/
theorem raceStep_move
    (taken : raceStep total config rcvr race action = some next) :
    RaceMove total config rcvr race action next := by
  cases action with
  | packet buffer =>
      simp only [raceStep] at taken
      split at taken <;> cases taken
      exact .packet buffer ‹_›
  | compare =>
      simp only [raceStep] at taken
      split at taken <;> cases taken
      rename_i freq rest stands
      by_cases same : race.lastFreq = freq
      · rw [if_neg (not_not.mpr same)]
        exact .repeated stands same
      · rw [if_pos same]
        exact .differs stands same
  | store =>
      simp only [raceStep] at taken
      split at taken <;> cases taken
      exact .store ‹_›
  | remember =>
      simp only [raceStep] at taken
      split at taken <;> cases taken
      exact .remember ‹_›
  | test =>
      simp only [raceStep] at taken
      split at taken <;> cases taken
      rename_i stands
      by_cases nothing : race.newFreq = 0
      · rw [if_neg (not_not.mpr nothing), ← stands]
        exact .nothing stands nothing
      · rw [if_pos nothing]
        exact .pending stands nothing
  | guard =>
      simp only [raceStep] at taken
      split at taken <;> cases taken
      rename_i stands
      by_cases untaken : race.newFreq = untakenFreq
      · rw [if_neg (not_not.mpr untaken)]
        exact .untaken stands untaken
      · rw [if_pos untaken]
        exact .taken stands untaken
  | read =>
      simp only [raceStep] at taken
      split at taken <;> cases taken
      exact .read ‹_›
  | ask =>
      simp only [raceStep] at taken
      split at taken <;> cases taken
      exact .ask ‹_›
  | copy =>
      simp only [raceStep] at taken
      split at taken <;> cases taken
      exact .copy ‹_›
  | clear =>
      simp only [raceStep] at taken
      split at taken <;> cases taken
      exact .clear ‹_›

/-- The frequency that was stored into `new_freq` last. -/
def TuneRace.latest (race : TuneRace) : BitVec 32 :=
  match race.ep2Pc with
  | .remember freq _ => freq
  | _ => race.lastFreq

/-- Between two frequencies the one stored last is `last_freq`. -/
theorem TuneRace.latest_of_next
    {race : TuneRace}
    {freqs : List (BitVec 32)}
    (stands : race.ep2Pc = .next freqs) :
    race.latest = race.lastFreq := by
  cases freqs <;> simp [latest, stands, Ep2TunePc.next]

variable (config rcvr) in
/-- What holds whatever the order of the steps. -/
structure RaceSane (race : TuneRace) : Prop where
  carried :
    ∀ freq ∈ race.ep2Pc.freqs, freq ≠ 0
  pending :
    race.sendIqPc = .guard ∨ race.sendIqPc = .read → race.newFreq ≠ 0
  asked :
    ∀ freq, race.sendIqPc = .copy freq ∨ race.sendIqPc = .clear freq →
      race.requests.getLast? = some (config.centerFreq rcvr freq)

theorem RaceSane.initial : RaceSane config rcvr .initial where
  carried := by
    intro freq member
    cases member
  pending := by
    rintro (stands | stands) <;> cases stands
  asked := by
    rintro freq (stands | stands) <;> cases stands

theorem RaceSane.step
    (sane : RaceSane config rcvr race)
    (taken : raceStep total config rcvr race action = some next) :
    RaceSane config rcvr next := by
  have carried := sane.carried
  cases raceStep_move taken with
  | packet buffer stands =>
      refine ⟨?_, sane.pending, sane.asked⟩
      intro freq member
      rw [Ep2TunePc.freqs_next] at member
      exact ne_zero_of_mem_carriedFreqs member
  | repeated stands same =>
      rw [stands] at carried
      refine ⟨?_, sane.pending, sane.asked⟩
      intro freq member
      rw [Ep2TunePc.freqs_next] at member
      exact carried freq (List.mem_cons_of_mem _ member)
  | differs stands differs =>
      rw [stands] at carried
      exact ⟨carried, sane.pending, sane.asked⟩
  | store stands =>
      rw [stands] at carried
      exact ⟨carried, fun _ => carried _ List.mem_cons_self, sane.asked⟩
  | remember stands =>
      rw [stands] at carried
      refine ⟨?_, sane.pending, sane.asked⟩
      intro freq member
      rw [Ep2TunePc.freqs_next] at member
      exact carried freq (List.mem_cons_of_mem _ member)
  | nothing stands nothing =>
      exact sane
  | pending stands pending =>
      refine ⟨carried, fun _ => pending, ?_⟩
      rintro freq (impossible | impossible) <;> cases impossible
  | untaken stands untaken =>
      refine ⟨carried, ?_, ?_⟩
      · rintro (impossible | impossible) <;> cases impossible
      · rintro freq (impossible | impossible) <;> cases impossible
  | taken stands taken =>
      refine ⟨carried, fun _ => sane.pending (.inl stands), ?_⟩
      rintro freq (impossible | impossible) <;> cases impossible
  | read stands =>
      refine ⟨carried, ?_, ?_⟩
      · rintro (impossible | impossible) <;> cases impossible
      · rintro freq (impossible | impossible) <;> cases impossible
  | ask stands =>
      refine ⟨carried, ?_, ?_⟩
      · rintro (impossible | impossible) <;> cases impossible
      · rintro freq (same | impossible)
        · cases same
          exact List.getLast?_concat
        · cases impossible
  | copy stands =>
      refine ⟨carried, ?_, ?_⟩
      · rintro (impossible | impossible) <;> cases impossible
      · rintro freq (impossible | same)
        · cases impossible
        · cases same
          exact sane.asked _ (.inl stands)
  | clear stands =>
      refine ⟨carried, ?_, ?_⟩
      · rintro (impossible | impossible) <;> cases impossible
      · rintro freq (impossible | impossible) <;> cases impossible

variable (config rcvr) in
/--
The frequency stored last is still pending, is the one the sender loop has read,
or is the one the dongle was asked for last.
-/
def Tracked (race : TuneRace) : Prop :=
  match race.sendIqPc.taken? with
  | some freq =>
      freq = race.latest ∧ race.newFreq = race.latest
  | none =>
      race.newFreq = race.latest ∨
        race.newFreq = 0 ∧ race.latest ≠ 0 ∧
          race.requests.getLast? =
            some (config.centerFreq rcvr race.latest)

variable (config rcvr) in
/-- The sender loop has read another frequency, and clears the one stored last. -/
def Missed (race : TuneRace) : Prop :=
  race.latest ≠ 0 ∧
    match race.sendIqPc.taken? with
    | some freq =>
        freq ≠ race.latest ∧ race.newFreq = race.latest
    | none =>
        race.newFreq = 0 ∧
          ∃ freq, freq ≠ race.latest ∧
            race.requests.getLast? = some (config.centerFreq rcvr freq)

variable (config rcvr) in
/-- What a step that stores nothing can do to the frequency stored last. -/
inductive UnstoredChange (race next : TuneRace) : Prop where
  /-- The step does not touch it. -/
  | kept
      (taken : next.sendIqPc.taken? = race.sendIqPc.taken?)
      (newFreq : next.newFreq = race.newFreq)
      (requests : next.requests = race.requests)
  /-- The sender loop reads the frequency to ask for. -/
  | read
      (before : race.sendIqPc.taken? = none)
      (pending : race.newFreq ≠ 0)
      (taken : next.sendIqPc.taken? = some race.newFreq)
      (newFreq : next.newFreq = race.newFreq)
  /-- The sender loop goes on with what it has read. -/
  | asked
      {freq : BitVec 32}
      (before : race.sendIqPc.taken? = some freq)
      (taken : next.sendIqPc.taken? = some freq)
      (newFreq : next.newFreq = race.newFreq)
  /-- The sender loop clears `new_freq`. -/
  | cleared
      {freq : BitVec 32}
      (before : race.sendIqPc.taken? = some freq)
      (taken : next.sendIqPc.taken? = none)
      (newFreq : next.newFreq = 0)
      (requests :
        next.requests.getLast? = some (config.centerFreq rcvr freq))

/-- Only a store changes which frequency was stored last. -/
theorem latest_of_not_store
    (taken : raceStep total config rcvr race action = some next)
    (notStore : action ≠ .store) :
    next.latest = race.latest := by
  cases raceStep_move taken with
  | packet buffer stands =>
      rw [TuneRace.latest_of_next rfl]
      simp [TuneRace.latest, stands]
  | repeated stands same =>
      rw [TuneRace.latest_of_next rfl]
      simp [TuneRace.latest, stands]
  | differs stands differs =>
      simp [TuneRace.latest, stands]
  | store stands =>
      exact absurd rfl notStore
  | remember stands =>
      rw [TuneRace.latest_of_next rfl]
      simp [TuneRace.latest, stands]
  | _ =>
      rfl

/-- A step that stores nothing is one of the four changes. -/
theorem RaceSane.unstoredChange
    (sane : RaceSane config rcvr race)
    (taken : raceStep total config rcvr race action = some next)
    (notStore : action ≠ .store) :
    UnstoredChange config rcvr race next := by
  cases raceStep_move taken with
  | packet buffer stands =>
      exact .kept rfl rfl rfl
  | repeated stands same =>
      exact .kept rfl rfl rfl
  | differs stands differs =>
      exact .kept rfl rfl rfl
  | store stands =>
      exact absurd rfl notStore
  | remember stands =>
      exact .kept rfl rfl rfl
  | nothing stands nothing =>
      exact .kept rfl rfl rfl
  | pending stands pending =>
      exact .kept (by simp [stands, SendIqTunePc.taken?]) rfl rfl
  | untaken stands untaken =>
      exact .kept (by simp [stands, SendIqTunePc.taken?]) rfl rfl
  | taken stands taken =>
      exact .kept (by simp [stands, SendIqTunePc.taken?]) rfl rfl
  | read stands =>
      exact .read (by simp [stands, SendIqTunePc.taken?])
        (sane.pending (.inr stands)) rfl rfl
  | ask stands =>
      exact .asked (by rw [stands]; rfl) rfl rfl
  | copy stands =>
      exact .asked (by rw [stands]; rfl) rfl rfl
  | clear stands =>
      exact .cleared (by rw [stands]; rfl) rfl rfl
        (sane.asked _ (.inr stands))

/-- What is tracked stays tracked until the next store. -/
theorem Tracked.step
    (tracked : Tracked config rcvr race)
    (sane : RaceSane config rcvr race)
    (taken : raceStep total config rcvr race action = some next)
    (notStore : action ≠ .store) :
    Tracked config rcvr next := by
  have sameLatest := latest_of_not_store taken notStore
  simp only [Tracked, sameLatest] at tracked ⊢
  cases sane.unstoredChange taken notStore with
  | kept taken newFreq requests =>
      rw [taken, newFreq, requests]
      exact tracked
  | read before pending taken newFreq =>
      rw [before] at tracked
      rw [taken]
      rcases tracked with isLatest | ⟨nothing, _⟩
      · exact ⟨isLatest, newFreq.trans isLatest⟩
      · exact absurd nothing pending
  | asked before taken newFreq =>
      rw [before] at tracked
      rw [taken]
      exact ⟨tracked.1, newFreq.trans tracked.2⟩
  | cleared before taken newFreq requests =>
      rw [before] at tracked
      rw [taken]
      rw [tracked.1] at requests
      by_cases zero : race.latest = 0
      · exact .inl (newFreq.trans zero.symm)
      · exact .inr ⟨newFreq, zero, requests⟩

/-- What is missed stays missed until the next store. -/
theorem Missed.step
    (missed : Missed config rcvr race)
    (sane : RaceSane config rcvr race)
    (taken : raceStep total config rcvr race action = some next)
    (notStore : action ≠ .store) :
    Missed config rcvr next := by
  have sameLatest := latest_of_not_store taken notStore
  simp only [Missed, sameLatest] at missed ⊢
  refine ⟨missed.1, ?_⟩
  have before := missed.2
  cases sane.unstoredChange taken notStore with
  | kept taken newFreq requests =>
      rw [taken, newFreq, requests]
      exact before
  | read none pending taken newFreq =>
      rw [none] at before
      exact absurd before.1 pending
  | asked stands taken newFreq =>
      rw [stands] at before
      rw [taken]
      exact ⟨before.1, newFreq.trans before.2⟩
  | cleared stands taken newFreq requests =>
      rw [stands] at before
      rw [taken]
      exact ⟨newFreq, _, before.1, requests⟩

/-- The store hits no frequency that the sender loop has read, or the same one. -/
def StoreSeen (race : TuneRace) : Prop :=
  ∀ stored ∈ race.ep2Pc.freqs.head?, ∀ freq ∈ race.sendIqPc.taken?,
    freq = stored

/-- After a store that is seen the frequency stored last is tracked. -/
theorem StoreSeen.tracked
    (seen : StoreSeen race)
    (taken : raceStep total config rcvr race .store = some next) :
    Tracked config rcvr next := by
  cases raceStep_move taken with
  | @store stored rest stands =>
      have unread : ∀ freq ∈ race.sendIqPc.taken?, freq = stored :=
        seen stored (by rw [stands]; rfl)
      simp only [Tracked, TuneRace.latest]
      cases isTaken : race.sendIqPc.taken? with
      | none =>
          exact .inl trivial
      | some freq =>
          exact ⟨unread freq isTaken, trivial⟩

/-- After a store that is not seen it is missed. -/
theorem RaceSane.missed_of_not_storeSeen
    (sane : RaceSane config rcvr race)
    (taken : raceStep total config rcvr race .store = some next)
    (unseen : ¬ StoreSeen race) :
    Missed config rcvr next := by
  cases raceStep_move taken with
  | @store stored rest stands =>
      have carried := sane.carried
      rw [stands] at carried
      refine ⟨carried stored List.mem_cons_self, ?_⟩
      simp only [TuneRace.latest]
      cases isTaken : race.sendIqPc.taken? with
      | none =>
          refine absurd ?_ unseen
          intro _ _ freq impossible
          rw [isTaken] at impossible
          cases impossible
      | some freq =>
          refine ⟨?_, trivial⟩
          intro same
          refine unseen ?_
          intro other isStored taken isFreq
          rw [stands] at isStored
          rw [isTaken] at isFreq
          cases isStored
          cases isFreq
          exact same

/-! ## Updates that get lost -/

/-- Both threads are at rest, and no frequency is pending. -/
structure Settled (race : TuneRace) : Prop where
  ep2 : race.ep2Pc = .idle
  sendIq : race.sendIqPc = .idle
  cleared : race.newFreq = 0

variable (config rcvr) in
/-- At rest, the dongle was last asked for the last frequency that was received. -/
def NothingLost (race : TuneRace) : Prop :=
  Settled race → race.lastFreq ≠ 0 →
    race.requests.getLast? = some (config.centerFreq rcvr race.lastFreq)

/-- At rest, what is tracked is what the dongle was asked for. -/
theorem Tracked.nothingLost (tracked : Tracked config rcvr race) :
    NothingLost config rcvr race := by
  intro settled received
  have isLast : race.latest = race.lastFreq := by
    simp [TuneRace.latest, settled.ep2]
  rw [Tracked, settled.sendIq, isLast] at tracked
  rcases tracked with pending | ⟨_, _, asked⟩
  · exact absurd (pending.symm.trans settled.cleared) received
  · exact asked

/-- At rest, what is missed is lost. -/
theorem Missed.lost
    (missed : Missed config rcvr race)
    (settled : Settled race) :
    ¬ NothingLost config rcvr race := by
  intro nothingLost
  have isLast : race.latest = race.lastFreq := by
    simp [TuneRace.latest, settled.ep2]
  rw [Missed, settled.sendIq, isLast] at missed
  obtain ⟨received, _, freq, differs, asked⟩ := missed
  rw [nothingLost settled received, Option.some.injEq] at asked
  apply differs
  simpa [TuneConfig.centerFreq] using asked.symm

variable (total config rcvr) in
/--
Whenever the threads come to rest with nothing pending, the last store into
`new_freq` before did not fall between the sender loop's reading and clearing
another frequency.
-/
def LastStoresSeen (actions : List RaceAction) : Prop :=
  ∀ earlier middle later before final,
    actions = earlier ++ .store :: middle ++ later →
    .store ∉ middle →
    PartialRun.run (raceStep total config rcvr) .initial earlier =
      some before →
    PartialRun.run (raceStep total config rcvr) before
        (.store :: middle) = some final →
    Settled final →
    StoreSeen before

/-- In a run without a store no step is one. -/
theorem everyStep_unstored
    {actions : List RaceAction}
    (unstored : .store ∉ actions)
    (race : TuneRace) :
    PartialRun.EveryStep (raceStep total config rcvr)
      (fun _ action => action ≠ .store) race actions := by
  intro earlier action later state after split _ _ isStore
  subst isStore
  exact unstored (by simp [split])

/-- Without a store what is tracked stays tracked. -/
theorem Tracked.run
    (tracked : Tracked config rcvr race)
    (sane : RaceSane config rcvr race)
    {actions : List RaceAction}
    (unstored : .store ∉ actions)
    (reached :
      PartialRun.run (raceStep total config rcvr) race actions =
        some next) :
    Tracked config rcvr next := by
  refine (PartialRun.invariant_of_everyStep
    (fun race => RaceSane config rcvr race ∧ Tracked config rcvr race)
    ?_ ⟨sane, tracked⟩ (everyStep_unstored unstored race) reached).2
  intro race action next before notStore taken
  exact ⟨before.1.step taken, before.2.step before.1 taken notStore⟩

/-- Without a store what is missed stays missed. -/
theorem Missed.run
    (missed : Missed config rcvr race)
    (sane : RaceSane config rcvr race)
    {actions : List RaceAction}
    (unstored : .store ∉ actions)
    (reached :
      PartialRun.run (raceStep total config rcvr) race actions =
        some next) :
    Missed config rcvr next := by
  refine (PartialRun.invariant_of_everyStep
    (fun race => RaceSane config rcvr race ∧ Missed config rcvr race)
    ?_ ⟨sane, missed⟩ (everyStep_unstored unstored race) reached).2
  intro race action next before notStore taken
  exact ⟨before.1.step taken, before.2.step before.1 taken notStore⟩

theorem RaceSane.run
    {actions : List RaceAction}
    (reached :
      PartialRun.run (raceStep total config rcvr) .initial actions =
        some race) :
    RaceSane config rcvr race :=
  PartialRun.invariant (RaceSane config rcvr) RaceSane.step
    RaceSane.initial reached

/--
In every run of packet handler and sender loop: no frequency is lost, in any
state reached, exactly when the last store before each state of rest was seen.
-/
theorem nothing_lost_iff
    (total : RcvrTotal)
    (config : TuneConfig)
    (rcvr : Nat)
    (actions : List RaceAction) :
    PartialRun.EveryState (raceStep total config rcvr)
        (NothingLost config rcvr) .initial actions ↔
      LastStoresSeen total config rcvr actions := by
  constructor
  · intro everyState earlier middle later before final split unstored
      reachedBefore reachedFinal settled
    by_contra unseen
    have sane := RaceSane.run reachedBefore
    rw [PartialRun.run_cons, Option.bind_eq_some_iff] at reachedFinal
    obtain ⟨after, stored, reachedRest⟩ := reachedFinal
    have missed : Missed config rcvr final :=
      (sane.missed_of_not_storeSeen stored unseen).run
        (sane.step stored) unstored reachedRest
    refine missed.lost settled ?_
    refine everyState (earlier ++ .store :: middle) later final split ?_
    rw [PartialRun.run_append, reachedBefore, Option.bind_some,
      PartialRun.run_cons, stored, Option.bind_some, reachedRest]
  · intro seen earlier later state split reached settled
    by_cases stores : RaceAction.store ∈ earlier
    · obtain ⟨first, middle, splitEarlier, unstored⟩ :=
        PartialRun.exists_last_action stores
      have whole := reached
      rw [splitEarlier, PartialRun.run_append_eq_some] at whole
      obtain ⟨before, reachedBefore, reachedRest⟩ := whole
      have seenBefore : StoreSeen before :=
        seen first middle later before state (by rw [← splitEarlier, split])
          unstored reachedBefore reachedRest settled
      have sane := RaceSane.run reachedBefore
      rw [PartialRun.run_cons, Option.bind_eq_some_iff] at reachedRest
      obtain ⟨after, stored, reachedState⟩ := reachedRest
      exact ((seenBefore.tracked stored).run (sane.step stored) unstored
        reachedState).nothingLost settled
    · have tracked : Tracked config rcvr TuneRace.initial := .inl rfl
      exact (tracked.run RaceSane.initial stores reached).nothingLost settled

/-! ## Threads that do not overlap -/

/-- What the thread of the packets needs of the race, and what it changes. -/
def TuneRace.withFreq
    (race : TuneRace)
    (pair : RcvrFreq)
    (ep2Pc : Ep2TunePc) :
    TuneRace :=
  { race with
    newFreq := pair.newFreq
    lastFreq := pair.lastFreq
    ep2Pc := ep2Pc }

variable (total config rcvr) in
/-- Left alone, the packet handler stores the frequencies one after the other. -/
theorem packet_alone
    (race : TuneRace)
    (pair : RcvrFreq)
    (freqs : List (BitVec 32)) :
    ∃ actions,
      PartialRun.run (raceStep total config rcvr)
          (race.withFreq pair (.next freqs)) actions =
        some (race.withFreq (freqs.foldl RcvrFreq.store pair) .idle) := by
  induction freqs generalizing pair with
  | nil =>
      exact ⟨[], rfl⟩
  | cons freq rest inductionHypothesis =>
      obtain ⟨actions, reached⟩ := inductionHypothesis (pair.store freq)
      by_cases same : pair.lastFreq = freq
      · refine ⟨.compare :: actions, ?_⟩
        rw [RcvrFreq.store_of_eq same] at reached
        rw [List.foldl_cons, RcvrFreq.store_of_eq same, ← reached]
        simp [PartialRun.run, raceStep, TuneRace.withFreq,
          Ep2TunePc.next, same]
      · refine ⟨.compare :: .store :: .remember :: actions, ?_⟩
        rw [RcvrFreq.store_of_ne same] at reached
        rw [List.foldl_cons, RcvrFreq.store_of_ne same, ← reached]
        simp [PartialRun.run, raceStep, TuneRace.withFreq,
          Ep2TunePc.next, same]

/-- One receiver of the system, with both threads at rest. -/
def TuneState.atRest (state : TuneState) (rcvr : Nat) : TuneRace where
  newFreq := state.ep2.newFreq rcvr
  lastFreq := state.ep2.lastFreq rcvr
  currFreq := state.currFreq rcvr
  requests := state.requests rcvr
  ep2Pc := .idle
  sendIqPc := .idle

/--
Whole packets and whole iterations, one after the other, are one of the orders
in which the two threads can take their steps.
-/
theorem tuneStep_simulated
    (rcvr : Nat)
    {state next : TuneState}
    {action : TuneAction}
    (taken : tuneStep total config state action = some next) :
    ∃ actions,
      PartialRun.run (raceStep total config rcvr)
          (state.atRest rcvr) actions =
        some (next.atRest rcvr) := by
  cases action with
  | ep2 buffer =>
      obtain ⟨ep2, handled, isNext⟩ := Option.map_eq_some_iff.mp taken
      have stored := processEp2_rcvrFreq handled rcvr
      obtain ⟨actions, reached⟩ :=
        packet_alone total config rcvr (state.atRest rcvr)
          (state.ep2.rcvrFreq rcvr) (carriedFreqs total rcvr buffer)
      rw [← stored] at reached
      refine ⟨.packet buffer :: actions, ?_⟩
      rw [← isNext]
      exact reached
  | iteration other =>
      cases taken
      by_cases own : rcvr = other
      · subst own
        by_cases nothing : state.ep2.newFreq rcvr = 0
        · refine ⟨[], ?_⟩
          rw [tuneIteration_of_not_taken (fun taken => taken.1 nothing)]
          rfl
        · by_cases untaken : state.ep2.newFreq rcvr = untakenFreq
          · refine ⟨[.test, .guard], ?_⟩
            rw [tuneIteration_of_not_taken (fun taken => taken.2 untaken)]
            have pending : untakenFreq ≠ 0#32 := by
              decide
            simp [PartialRun.run, raceStep, TuneState.atRest, untaken,
              pending]
          · refine ⟨[.test, .guard, .read, .ask, .copy, .clear], ?_⟩
            rw [tuneIteration_of_taken ⟨nothing, untaken⟩]
            have pending : state.ep2.newFreq rcvr ≠ 0#32 := nothing
            simp [PartialRun.run, raceStep, TuneState.atRest, pending,
              untaken]
      · refine ⟨[], ?_⟩
        by_cases taken :
            state.ep2.newFreq other ≠ 0 ∧
              state.ep2.newFreq other ≠ untakenFreq
        · rw [tuneIteration_of_taken taken]
          simp [TuneState.atRest, own]
        · rw [tuneIteration_of_not_taken taken]
          rfl

end Race

/--
The sender loop has asked for 7.1 MHz when a packet brings 7.2 MHz; then the
loop clears `new_freq`.
-/
def lostRun : List RaceAction :=
  [.packet (freqPacket 7100000), .compare, .store, .remember,
    .test, .guard, .read, .ask,
    .packet (freqPacket 7200000), .compare, .store, .remember,
    .copy, .clear]

theorem lostRun_reaches :
    (PartialRun.run (raceStep oneRcvr plainConfig 0) .initial lostRun).map
        (fun race =>
          (race.newFreq, race.lastFreq, race.requests, race.ep2Pc,
            race.sendIqPc)) =
      some (0, 7200000, [7100000], .idle, .idle) := by
  decide

/-- After the lost run both threads rest, and the dongle is still at 7.1 MHz. -/
theorem frequency_lost :
    ∃ race,
      PartialRun.run (raceStep oneRcvr plainConfig 0) .initial lostRun =
          some race ∧
        Settled race ∧
        race.lastFreq = 7200000 ∧
        race.requests = [7100000] ∧
        ¬ NothingLost plainConfig 0 race := by
  obtain ⟨race, reached, observed⟩ :=
    Option.map_eq_some_iff.mp lostRun_reaches
  simp only [Prod.mk.injEq] at observed
  obtain ⟨cleared, last, asked, ep2, sendIq⟩ := observed
  refine ⟨race, reached, ⟨ep2, sendIq, cleared⟩, last, asked, ?_⟩
  intro nothingLost
  have isAsked :=
    nothingLost ⟨ep2, sendIq, cleared⟩ (by rw [last]; decide)
  rw [asked, last] at isAsked
  exact absurd isAsked (by decide)

end LibRtlSdr.Hpsdr
