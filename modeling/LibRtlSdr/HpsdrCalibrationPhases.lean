import LibRtlSdr.FlagWord
import LibRtlSdr.HpsdrCalibration
import Mathlib.Algebra.Order.Ring.Int

namespace LibRtlSdr.Hpsdr

/-!
# Phases of the calibration

While every callback acts on tests that still hold, one receiver at a time goes through
the calibration.  The phase that it is in says what the shared variables are, where the
thread stands, and which callback is behind the first assignment of a branch.
-/

/-! ## Phases -/

/-- How far the calibration of a receiver is. -/
inductive CalPhase where
  | free
  /-- `cal_rcvr` is set, and `cal_state` still says that no receiver is calibrated. -/
  | claimed (r : Nat)
  | requested (r : Nat)
  /-- The dongle is tuned, and a buffer is awaited. -/
  | opened (r : Nat)
  /-- `fft_buf` is set, and `cal_state` does not say so yet. -/
  | handed (r : Nat)
  | computing (r : Nat)
  /-- The bit of the receiver is cleared. -/
  | cleared (r : Nat)
  | finished (r : Nat)
  /-- `cal_state` says that no receiver is calibrated, and `cal_rcvr` is still set. -/
  | released (r : Nat)

namespace CalPhase

/-- The receiver that is calibrated. -/
def rcvrNum : CalPhase → Option Nat
  | .free => none
  | .claimed r | .requested r | .opened r | .handed r | .computing r | .cleared r
  | .finished r | .released r => some r

/-- `cal_rcvr`. -/
def calRcvr (phase : CalPhase) : Int :=
  match phase.rcvrNum with
  | none => -1
  | some r => r

/-- `cal_state`. -/
def calState : CalPhase → Int
  | .free | .claimed _ | .released _ => calState0
  | .requested r => r
  | .opened _ | .handed _ => calState1
  | .computing _ | .cleared _ => calState2
  | .finished _ => calState3

/-- The callback that is behind the first assignment of a branch. -/
def committed : CalPhase → Nat → Option CalCallback
  | .claimed r, other => if other = r then some .setRequest else none
  | .handed r, other => if other = r then some .setState2 else none
  | .released r, other => if other = r then some .clearRcvr else none
  | _, _ => none

/-- The receiver whose bit is still set. -/
def marked : CalPhase → Option Nat
  | .claimed r | .requested r | .opened r | .handed r | .computing r => some r
  | _ => none

/-- The receiver whose buffer stands in `fft_buf`. -/
def buffered : CalPhase → Option Nat
  | .handed r | .computing r => some r
  | _ => none

/-- Where the thread stands in a phase. -/
inductive Admits (config : CalConfig) : CalPhase → CalThread → Prop where
  | wait
      {phase : CalPhase}
      (isNegative : phase.calState = calState0 ∨ phase.calState = calState3) :
      Admits config phase .waitRequest
  | test
      {phase : CalPhase}
      (isNegative : phase.calState = calState0 ∨ phase.calState = calState3) :
      Admits config phase .testRequest
  | waitRequested {r : Nat} : Admits config (.requested r) .waitRequest
  | testRequested {r : Nat} : Admits config (.requested r) .testRequest
  | testExit {r : Nat} : Admits config (.requested r) .testExit
  | pick {r : Nat} : Admits config (.requested r) .pick
  | tune {r : Nat} : Admits config (.requested r) (.tune r)
  | lockState1 {r : Nat} : Admits config (.requested r) (.lockState1 r)
  | setState1 {r : Nat} : Admits config (.requested r) (.setState1 r)
  | testOpened {r : Nat} : Admits config (.opened r) (.testState1 r)
  | waitOpened {r : Nat} : Admits config (.opened r) (.waitBuffer r)
  | testHanded {r : Nat} : Admits config (.handed r) (.testState1 r)
  | waitHanded {r : Nat} : Admits config (.handed r) (.waitBuffer r)
  | testComputing {r : Nat} : Admits config (.computing r) (.testState1 r)
  | waitComputing {r : Nat} : Admits config (.computing r) (.waitBuffer r)
  | testExit2 {r : Nat} : Admits config (.computing r) (.testExit2 r)
  | fft {r left : Nat} : Admits config (.computing r) (.fft r left)
  | readMask {r : Nat} : Admits config (.computing r) (.readMask r)
  | writeMask
      {r mask : Nat}
      (isMarked : mask.testBit r = true)
      (within : FlagWord.Within mask config.rcvrsMask) :
      Admits config (.computing r) (.writeMask r mask)
  | setState3 {r : Nat} : Admits config (.cleared r) (.setState3 r)

/-- A thread that waits for a request waits as well in another such phase. -/
theorem Admits.of_waiting
    {config : CalConfig}
    {before after : CalPhase}
    {thread : CalThread}
    (stands : before.Admits config thread)
    (wasNegative : before.calState = calState0 ∨ before.calState = calState3)
    (isNegative : after.calState = calState0 ∨ after.calState = calState3) :
    after.Admits config thread := by
  cases stands with
  | wait _ => exact .wait isNegative
  | test _ => exact .test isNegative
  | _ =>
      simp only [calState, calState0, calState1, calState2, calState3] at wasNegative
      omega

end CalPhase

/-- A callback behind the first assignment of a branch. -/
def CalCallback.committed : CalCallback → Option CalCallback
  | .setRequest => some .setRequest
  | .setState2 => some .setState2
  | .clearRcvr => some .clearRcvr
  | _ => none

/-- The receiver whose dongle the thread has tuned. -/
def CalThread.tuned : CalThread → Option Nat
  | .lockState1 r | .setState1 r | .testState1 r | .waitBuffer r | .testExit2 r | .fft r _
  | .readMask r | .writeMask r _ | .setState3 r => some r
  | _ => none

/-- The shared variables in a phase. -/
structure InPhase (config : CalConfig) (s : Calibration) (phase : CalPhase) : Prop where
  calState : s.calState = phase.calState
  calRcvr : s.calRcvr = phase.calRcvr
  bounded : ∀ r, phase.rcvrNum = some r → r < maxRcvrs
  thread : phase.Admits config s.thread
  committed : ∀ r, (s.callback r).committed = phase.committed r
  marked : ∀ r, phase.marked = some r → s.calRcvrMask.testBit r = true
  within : FlagWord.Within s.calRcvrMask config.rcvrsMask
  buffer : ∀ r, phase.buffered = some r → s.fftBuf = some ⟨r, s.tunings r⟩
  tuned : ∀ r, s.thread.tuned = some r → 0 < s.tunings r

theorem inPhase_initial (config : CalConfig) (activated : Bool) :
    InPhase config (.initial config activated) .free where
  calState := rfl
  calRcvr := rfl
  bounded _ isRcvr := nomatch isRcvr
  thread := .wait (.inl rfl)
  committed _ := rfl
  marked _ isMarked := nomatch isMarked
  within bit := by
    unfold Calibration.initial
    dsimp only
    split
    · exact id
    · simp
  buffer _ isBuffered := nomatch isBuffered
  tuned _ isTuned := nomatch isTuned

section Steps

variable {config : CalConfig} {s : Calibration} {phase : CalPhase} {r : Nat}

/-! ## Steps of the callbacks -/

/-- A step of a callback that is behind no first assignment, and changes no more than its
own place, its count, or the mask back to the whole one. -/
theorem InPhase.harmless
    (inPhase : InPhase config s phase)
    {calCount : Nat → Nat}
    {doCalTime mask : Nat}
    {next : CalCallback}
    (isMask : mask = s.calRcvrMask ∨ mask = config.rcvrsMask)
    (before : (s.callback r).committed = none)
    (after : next.committed = none) :
    InPhase config
      ({ s with calCount := calCount, doCalTime := doCalTime, calRcvrMask := mask }.goes r
        next)
      phase := by
  refine
    ⟨inPhase.calState, inPhase.calRcvr, inPhase.bounded, inPhase.thread, ?_, ?_, ?_,
      inPhase.buffer, inPhase.tuned⟩
  · intro other
    unfold Calibration.goes
    dsimp only
    by_cases isOwn : other = r
    · rw [isOwn, Function.update_self, after, ← before]
      exact inPhase.committed r
    · rw [Function.update_of_ne isOwn]
      exact inPhase.committed other
  · intro other isMarked
    have known := inPhase.marked other isMarked
    rcases isMask with rfl | rfl
    · exact known
    · exact inPhase.within other known
  · intro bit isSet
    rcases isMask with rfl | rfl
    · exact inPhase.within bit isSet
    · exact isSet

/-- A callback goes on without an assignment. -/
theorem InPhase.goes
    (inPhase : InPhase config s phase)
    {next : CalCallback}
    (before : (s.callback r).committed = none)
    (after : next.committed = none) :
    InPhase config (s.goes r next) phase :=
  inPhase.harmless (.inl rfl) before after

/-- Only the callback of the calibrated receiver is committed. -/
theorem CalPhase.committed_of_ne
    {other : Nat}
    (isRcvr : phase.rcvrNum = none ∨ phase.rcvrNum = some r)
    (isOther : other ≠ r) :
    phase.committed other = none := by
  cases phase with
  | claimed found | handed found | released found =>
      have isOwn : found = r := by
        simpa [CalPhase.rcvrNum] using isRcvr
      simp [CalPhase.committed, isOwn, isOther]
  | _ => rfl

/-- The commitments when the callback of the calibrated receiver goes on. -/
theorem committed_goes
    {before after : CalPhase}
    {next : CalCallback}
    (committed : ∀ other, (s.callback other).committed = before.committed other)
    (own : next.committed = after.committed r)
    (wasRcvr : before.rcvrNum = none ∨ before.rcvrNum = some r)
    (isRcvr : after.rcvrNum = none ∨ after.rcvrNum = some r) :
    ∀ other, ((s.goes r next).callback other).committed = after.committed other := by
  intro other
  unfold Calibration.goes
  dsimp only
  by_cases isOwn : other = r
  · rw [isOwn, Function.update_self]
    exact own
  · rw [Function.update_of_ne isOwn, committed other, before.committed_of_ne wasRcvr isOwn,
      after.committed_of_ne isRcvr isOwn]

/-- The commitment of a callback tells the phase. -/
theorem phase_of_committed
    (phase : CalPhase)
    (r : Nat) :
    (phase.committed r = some .setRequest → phase = .claimed r) ∧
      (phase.committed r = some .setState2 → phase = .handed r) ∧
        (phase.committed r = some .clearRcvr → phase = .released r) := by
  cases phase <;> simp only [CalPhase.committed] <;>
    refine ⟨?_, ?_, ?_⟩ <;> intro isCommitted
  all_goals try contradiction
  all_goals split at isCommitted
  all_goals try contradiction
  all_goals
    rename_i isOwn
    rw [isOwn]

/-- A callback that may enter belongs to the receiver that is calibrated. -/
theorem InPhase.own
    (inPhase : InPhase config s phase)
    (mayEnter : MayEnter s r)
    {other : Nat}
    (isRcvr : phase.rcvrNum = some other) :
    other = r := by
  have known := inPhase.calRcvr
  unfold CalPhase.calRcvr at known
  rw [isRcvr] at known
  unfold MayEnter at mayEnter
  dsimp only at known
  omega

/-- In `CAL_STATE_0` a callback may enter that is not in the middle of another branch. -/
theorem InPhase.eq_free
    (inPhase : InPhase config s phase)
    (mayEnter : MayEnter s r)
    (isState : s.calState = calState0)
    (before : (s.callback r).committed = none) :
    phase = .free := by
  have known := inPhase.calState.symm.trans isState
  have committed := inPhase.committed r
  rw [before] at committed
  cases phase with
  | free => rfl
  | claimed other | released other =>
      obtain rfl := inPhase.own mayEnter rfl
      simp [CalPhase.committed] at committed
  | requested other =>
      unfold CalPhase.calState calState0 at known
      dsimp only at known
      omega
  | _ => simp [CalPhase.calState, calState0, calState1, calState2, calState3] at known

/-- In `CAL_STATE_1` the callback of the calibrated receiver may enter. -/
theorem InPhase.eq_opened
    (inPhase : InPhase config s phase)
    (mayEnter : MayEnter s r)
    (isState : s.calState = calState1)
    (before : (s.callback r).committed = none) :
    phase = .opened r := by
  have known := inPhase.calState.symm.trans isState
  have committed := inPhase.committed r
  rw [before] at committed
  cases phase with
  | opened other =>
      obtain rfl := inPhase.own mayEnter rfl
      rfl
  | handed other =>
      obtain rfl := inPhase.own mayEnter rfl
      simp [CalPhase.committed] at committed
  | requested other =>
      unfold CalPhase.calState calState1 at known
      dsimp only at known
      omega
  | _ => simp [CalPhase.calState, calState0, calState1, calState2, calState3] at known

/-- And in `CAL_STATE_3`. -/
theorem InPhase.eq_finished
    (inPhase : InPhase config s phase)
    (mayEnter : MayEnter s r)
    (isState : s.calState = calState3) :
    phase = .finished r := by
  have known := inPhase.calState.symm.trans isState
  cases phase with
  | finished other =>
      obtain rfl := inPhase.own mayEnter rfl
      rfl
  | requested other =>
      unfold CalPhase.calState calState3 at known
      dsimp only at known
      omega
  | _ => simp [CalPhase.calState, calState0, calState1, calState2, calState3] at known

/-- `cal_rcvr = rcb->rcvr_num`. -/
theorem inPhase_setRcvr
    (inPhase : InPhase config s .free)
    (isReceiver : r < maxRcvrs)
    (isMarked : s.calRcvrMask.testBit r = true) :
    InPhase config ({ s with calRcvr := r }.goes r .setRequest) (.claimed r) where
  calState := inPhase.calState
  calRcvr := rfl
  bounded _ isRcvr := Option.some.inj isRcvr ▸ isReceiver
  thread := inPhase.thread.of_waiting (.inl rfl) (.inl rfl)
  committed :=
    committed_goes inPhase.committed (by simp [CalCallback.committed, CalPhase.committed])
      (.inl rfl) (.inr rfl)
  marked _ isRcvr := Option.some.inj isRcvr ▸ isMarked
  within := inPhase.within
  buffer _ isBuffered := nomatch isBuffered
  tuned := inPhase.tuned

/-- `mcb.cal_state = rcb->rcvr_num`. -/
theorem inPhase_setRequest
    (inPhase : InPhase config s (.claimed r))
    (isFree : s.thread.holdsLock = false) :
    InPhase config ({ s with calState := r }.goes r .testEmpty) (.requested r) where
  calState := rfl
  calRcvr := inPhase.calRcvr
  bounded := inPhase.bounded
  thread := by
    show CalPhase.Admits config (.requested r) s.thread
    have stands := inPhase.thread
    generalize s.thread = thread at stands isFree ⊢
    cases stands with
    | wait _ => exact .waitRequested
    | test _ => exact .testRequested
  committed := committed_goes inPhase.committed rfl (.inr rfl) (.inr rfl)
  marked := inPhase.marked
  within := inPhase.within
  buffer _ isBuffered := nomatch isBuffered
  tuned := inPhase.tuned

/-- `fft_buf = buf`. -/
theorem inPhase_setFftBuf
    (inPhase : InPhase config s (.opened r))
    {tunings : Nat}
    (isLate : tunings = s.tunings r) :
    InPhase config ({ s with fftBuf := some ⟨r, tunings⟩ }.goes r .setState2) (.handed r) where
  calState := inPhase.calState
  calRcvr := inPhase.calRcvr
  bounded := inPhase.bounded
  thread := by
    show CalPhase.Admits config (.handed r) s.thread
    have stands := inPhase.thread
    generalize s.thread = thread at stands ⊢
    cases stands with
    | testOpened => exact .testHanded
    | waitOpened => exact .waitHanded
    | wait isNegative | test isNegative =>
        simp [CalPhase.calState, calState0, calState1, calState3] at isNegative
  committed :=
    committed_goes inPhase.committed (by simp [CalCallback.committed, CalPhase.committed])
      (.inr rfl) (.inr rfl)
  marked := inPhase.marked
  within := inPhase.within
  buffer other isBuffered := by
    obtain rfl := Option.some.inj isBuffered
    exact congrArg (fun before => some (CalBuffer.mk r before)) isLate
  tuned := inPhase.tuned

/-- `mcb.cal_state = CAL_STATE_2`. -/
theorem inPhase_setState2
    (inPhase : InPhase config s (.handed r)) :
    InPhase config ({ s with calState := calState2 }.goes r .idle) (.computing r) where
  calState := rfl
  calRcvr := inPhase.calRcvr
  bounded := inPhase.bounded
  thread := by
    show CalPhase.Admits config (.computing r) s.thread
    have stands := inPhase.thread
    generalize s.thread = thread at stands ⊢
    cases stands with
    | testHanded => exact .testComputing
    | waitHanded => exact .waitComputing
    | wait isNegative | test isNegative =>
        simp [CalPhase.calState, calState0, calState1, calState3] at isNegative
  committed := committed_goes inPhase.committed rfl (.inr rfl) (.inr rfl)
  marked := inPhase.marked
  within := inPhase.within
  buffer := inPhase.buffer
  tuned := inPhase.tuned

/-- `mcb.cal_state = CAL_STATE_0`. -/
theorem inPhase_setState0
    (inPhase : InPhase config s (.finished r)) :
    InPhase config ({ s with calState := calState0 }.goes r .clearRcvr) (.released r) where
  calState := rfl
  calRcvr := inPhase.calRcvr
  bounded := inPhase.bounded
  thread := inPhase.thread.of_waiting (.inr rfl) (.inl rfl)
  committed :=
    committed_goes inPhase.committed (by simp [CalCallback.committed, CalPhase.committed])
      (.inr rfl) (.inr rfl)
  marked _ isMarked := nomatch isMarked
  within := inPhase.within
  buffer _ isBuffered := nomatch isBuffered
  tuned := inPhase.tuned

/-- `cal_rcvr = -1`. -/
theorem inPhase_clearRcvr
    (inPhase : InPhase config s (.released r)) :
    InPhase config ({ s with calRcvr := -1 }.goes r .testCleared) .free where
  calState := inPhase.calState
  calRcvr := rfl
  bounded _ isRcvr := nomatch isRcvr
  thread := inPhase.thread.of_waiting (.inl rfl) (.inl rfl)
  committed := committed_goes inPhase.committed rfl (.inr rfl) (.inl rfl)
  marked _ isMarked := nomatch isMarked
  within := inPhase.within
  buffer _ isBuffered := nomatch isBuffered
  tuned := inPhase.tuned

/-- The next access of a callback. -/
theorem inPhase_callbackStep
    (inPhase : InPhase config s phase)
    (isReceiver : r < maxRcvrs)
    (current : Current s (.callback r))
    {next : Calibration}
    (taken : callbackStep config r s = some next) :
    ∃ after, InPhase config next after := by
  have committed := inPhase.committed r
  obtain ⟨isClaimed, isHanded, isReleased⟩ := phase_of_committed phase r
  unfold callbackStep at taken
  unfold Current CalCallback.Current at current
  cases place : s.callback r with
  | idle =>
      rw [place] at taken
      contradiction
  | testFree tunings | testOwn tunings | testState0 tunings | testDue | testState1 tunings
  | testState3 | testEmpty =>
      rw [place] at taken
      cases taken
      refine ⟨phase, inPhase.goes (by rw [place]; rfl) ?_⟩
      split <;> rfl
  | setRcvr =>
      rw [place] at taken
      simp only [place] at current
      cases taken
      obtain ⟨mayEnter, isState, isMarked⟩ := current
      obtain rfl := inPhase.eq_free mayEnter isState (by rw [place]; rfl)
      exact ⟨_, inPhase_setRcvr inPhase isReceiver isMarked⟩
  | setRequest =>
      rw [place] at taken committed
      obtain rfl := isClaimed committed.symm
      by_cases isHeld : s.thread.holdsLock
      · simp [isHeld] at taken
      · simp only [isHeld] at taken
        cases taken
        exact ⟨_, inPhase_setRequest inPhase (Bool.eq_false_iff.mpr isHeld)⟩
  | setFftBuf tunings =>
      rw [place] at taken
      simp only [place] at current
      cases taken
      obtain ⟨mayEnter, isState, isLate⟩ := current
      obtain rfl := inPhase.eq_opened mayEnter isState (by rw [place]; rfl)
      exact ⟨_, inPhase_setFftBuf inPhase isLate⟩
  | setState2 =>
      rw [place] at taken committed
      obtain rfl := isHanded committed.symm
      by_cases isHeld : s.thread.holdsLock
      · simp [isHeld] at taken
      · simp only [isHeld] at taken
        cases taken
        exact ⟨_, inPhase_setState2 inPhase⟩
  | setState0 =>
      rw [place] at taken
      simp only [place] at current
      cases taken
      obtain ⟨mayEnter, isState⟩ := current
      obtain rfl := inPhase.eq_finished mayEnter isState
      exact ⟨_, inPhase_setState0 inPhase⟩
  | clearRcvr =>
      rw [place] at taken committed
      cases taken
      obtain rfl := isReleased committed.symm
      exact ⟨_, inPhase_clearRcvr inPhase⟩
  | testCleared =>
      rw [place] at taken
      cases taken
      exact ⟨phase, inPhase.harmless (.inl rfl) (by rw [place]; rfl) rfl⟩
  | resetMask =>
      rw [place] at taken
      cases taken
      exact ⟨phase, inPhase.harmless (.inr rfl) (by rw [place]; rfl) rfl⟩

/-! ## Steps of the thread -/

/-- The thread goes on and assigns nothing. -/
theorem InPhase.moves
    (inPhase : InPhase config s phase)
    {thread : CalThread}
    (stands : phase.Admits config thread)
    (wasTuned : ∀ r, thread.tuned = some r → s.thread.tuned = some r) :
    InPhase config { s with thread := thread } phase :=
  { inPhase with
    thread := stands
    tuned := fun r isTuned => inPhase.tuned r (wasTuned r isTuned) }

/-- `rtlsdr_set_center_freq` to the calibration frequency. -/
theorem inPhase_tune
    (inPhase : InPhase config s (.requested r)) :
    InPhase config
      { s with
        tunings := Function.update s.tunings r (s.tunings r + 1)
        thread := .lockState1 r }
      (.requested r) :=
  { inPhase with
    thread := .lockState1
    buffer := fun _ isBuffered => nomatch isBuffered
    tuned := by
      intro other isTuned
      obtain rfl := Option.some.inj isTuned
      dsimp only
      rw [Function.update_self]
      omega }

/-- `mcb.cal_state = CAL_STATE_1`. -/
theorem inPhase_setState1
    (inPhase : InPhase config s (.requested r))
    (place : s.thread = .setState1 r) :
    InPhase config { s with calState := calState1, thread := .testState1 r } (.opened r) :=
  { inPhase with
    calState := rfl
    thread := .testOpened
    buffer := fun _ isBuffered => nomatch isBuffered
    tuned := fun other isTuned => inPhase.tuned other (by rw [place]; exact isTuned) }

/-- `cal_rcvr_mask ^= 1 << rcb->rcvr_num`. -/
theorem inPhase_writeMask
    (inPhase : InPhase config s (.computing r))
    {mask : Nat}
    (place : s.thread = .writeMask r mask)
    (isMarked : mask.testBit r = true)
    (within : FlagWord.Within mask config.rcvrsMask) :
    InPhase config { s with calRcvrMask := mask ^^^ 1 <<< r, thread := .setState3 r }
      (.cleared r) :=
  { inPhase with
    thread := .setState3
    marked := fun _ isMarked => nomatch isMarked
    within := by
      intro bit isSet
      rw [Nat.testBit_xor, FlagWord.testBit_one_shiftLeft] at isSet
      by_cases isOwn : bit = r
      · rw [isOwn, isMarked] at isSet
        simp at isSet
      · simp only [isOwn, decide_false, Bool.xor_false] at isSet
        exact within bit isSet
    buffer := fun _ isBuffered => nomatch isBuffered
    tuned := fun other isTuned => inPhase.tuned other (by rw [place]; exact isTuned) }

/-- `mcb.cal_state = CAL_STATE_3`. -/
theorem inPhase_setState3
    (inPhase : InPhase config s (.cleared r)) :
    InPhase config { s with calState := calState3, thread := .waitRequest } (.finished r) :=
  { inPhase with
    calState := rfl
    thread := .wait (.inr rfl)
    tuned := fun _ isTuned => nomatch isTuned }

/-- The thread leaves its first loop when there is a request, and only then. -/
theorem InPhase.after_testRequest
    (inPhase : InPhase config s phase)
    (place : s.thread = .testRequest) :
    phase.Admits config (if s.calState < 0 then .waitRequest else .testExit) := by
  have stands := inPhase.thread
  rw [place] at stands
  rw [inPhase.calState]
  cases stands with
  | test isNegative =>
      have negative : phase.calState < 0 := by
        rcases isNegative with isNegative | isNegative <;> rw [isNegative] <;> decide
      rw [if_pos negative]
      exact .wait isNegative
  | testRequested =>
      rw [if_neg (by simp [CalPhase.calState])]
      exact .testExit

/-- `cal_state` of a request is not `CAL_STATE_EXIT`. -/
theorem InPhase.after_testExit
    (inPhase : InPhase config s phase)
    (place : s.thread = .testExit) :
    phase.Admits config (if s.calState = calStateExit then .exited else .pick) := by
  have stands := inPhase.thread
  rw [place] at stands
  rw [inPhase.calState]
  cases stands with
  | @testExit r =>
      have bounded := inPhase.bounded r rfl
      have notExit : ¬ (CalPhase.requested r).calState = calStateExit := by
        simp only [CalPhase.calState, calStateExit]
        omega
      rw [if_neg notExit]
      exact .pick

/-- It leaves the second when a buffer is handed over, and `cal_state` says so. -/
theorem InPhase.after_testState1
    (inPhase : InPhase config s phase)
    (place : s.thread = .testState1 r) :
    phase.Admits config
      (if s.calState = calState1 then .waitBuffer r else .testExit2 r) := by
  have stands := inPhase.thread
  rw [place] at stands
  rw [inPhase.calState]
  cases stands with
  | testOpened =>
      have awaited : (CalPhase.opened r).calState = calState1 := rfl
      rw [if_pos awaited]
      exact .waitOpened
  | testHanded =>
      have awaited : (CalPhase.handed r).calState = calState1 := rfl
      rw [if_pos awaited]
      exact .waitHanded
  | testComputing =>
      rw [if_neg (by simp [CalPhase.calState, calState1, calState2])]
      exact .testExit2

/-- Nor is that of a buffer that is handed over. -/
theorem InPhase.after_testExit2
    (inPhase : InPhase config s phase)
    (place : s.thread = .testExit2 r) :
    phase.Admits config
      (if s.calState = calStateExit then .exited else .fft r fftReads) := by
  have stands := inPhase.thread
  rw [place] at stands
  rw [inPhase.calState]
  cases stands with
  | testExit2 =>
      rw [if_neg (by simp [CalPhase.calState, calState2, calStateExit, maxRcvrs])]
      exact .fft

/-- The next access of the calibration thread. -/
theorem inPhase_threadStep
    (inPhase : InPhase config s phase)
    {next : Calibration}
    (taken : threadStep s = some next) :
    ∃ after, InPhase config next after := by
  have stands := inPhase.thread
  unfold threadStep at taken
  cases place : s.thread with
  | waitRequest =>
      rw [place] at taken stands
      cases taken
      refine ⟨phase, inPhase.moves ?_ (fun _ isTuned => nomatch isTuned)⟩
      cases stands with
      | wait isNegative => exact .test isNegative
      | waitRequested => exact .testRequested
  | testRequest =>
      rw [place] at taken
      cases taken
      refine ⟨phase, inPhase.moves (inPhase.after_testRequest place) ?_⟩
      intro _ isTuned
      split at isTuned <;> contradiction
  | testExit =>
      rw [place] at taken
      cases taken
      refine ⟨phase, inPhase.moves (inPhase.after_testExit place) ?_⟩
      intro _ isTuned
      split at isTuned <;> contradiction
  | pick =>
      rw [place] at taken stands
      cases stands with
      | @pick r =>
          have isRcvr : s.calState = r := inPhase.calState
          have picked : s.calState.toNat = r := by
            rw [isRcvr, Int.toNat_natCast]
          dsimp only at taken
          split at taken
          · cases taken
            rw [picked]
            exact ⟨_, inPhase.moves .tune (fun _ isTuned => nomatch isTuned)⟩
          · contradiction
  | tune r =>
      rw [place] at taken stands
      cases taken
      cases stands with
      | tune => exact ⟨_, inPhase_tune inPhase⟩
  | lockState1 r =>
      rw [place] at taken stands
      cases taken
      cases stands with
      | lockState1 =>
          exact ⟨_, inPhase.moves .setState1 (fun _ isTuned => place ▸ isTuned)⟩
  | setState1 r =>
      rw [place] at taken stands
      cases taken
      cases stands with
      | setState1 => exact ⟨_, inPhase_setState1 inPhase place⟩
  | testState1 r =>
      rw [place] at taken
      cases taken
      refine ⟨phase, inPhase.moves (inPhase.after_testState1 place) ?_⟩
      intro other isTuned
      rw [place]
      split at isTuned <;> exact isTuned
  | waitBuffer r =>
      rw [place] at taken stands
      cases taken
      refine ⟨phase, inPhase.moves ?_ (fun _ isTuned => place ▸ isTuned)⟩
      cases stands with
      | waitOpened => exact .testOpened
      | waitHanded => exact .testHanded
      | waitComputing => exact .testComputing
  | testExit2 r =>
      rw [place] at taken
      cases taken
      refine ⟨phase, inPhase.moves (inPhase.after_testExit2 place) ?_⟩
      intro other isTuned
      rw [place]
      split at isTuned
      · contradiction
      · exact isTuned
  | fft r left =>
      rw [place] at taken stands
      cases stands with
      | fft =>
          cases left with
          | zero =>
              cases taken
              exact ⟨_, inPhase.moves .readMask (fun _ isTuned => place ▸ isTuned)⟩
          | succ left =>
              cases taken
              exact ⟨_, inPhase.moves .fft (fun _ isTuned => place ▸ isTuned)⟩
  | readMask r =>
      rw [place] at taken stands
      cases taken
      cases stands with
      | readMask =>
          exact
            ⟨_, inPhase.moves (.writeMask (inPhase.marked r rfl) inPhase.within)
              (fun _ isTuned => place ▸ isTuned)⟩
  | writeMask r mask =>
      rw [place] at taken stands
      cases taken
      cases stands with
      | writeMask isMarked within =>
          exact ⟨_, inPhase_writeMask inPhase place isMarked within⟩
  | setState3 r =>
      rw [place] at taken stands
      cases taken
      cases stands with
      | setState3 => exact ⟨_, inPhase_setState3 inPhase⟩
  | exited =>
      rw [place] at taken
      contradiction

/-- A step of the system, from one phase to the next. -/
theorem inPhase_calStep
    (inPhase : InPhase config s phase)
    {action : CalAction}
    (current : Current s action)
    {next : Calibration}
    (taken : calStep config s action = some next) :
    ∃ after, InPhase config next after := by
  cases action with
  | deliver r =>
      unfold calStep at taken
      dsimp only at taken
      split at taken
      · rename_i delivers
        cases taken
        exact ⟨phase, inPhase.harmless (.inl rfl) (by rw [delivers.2]; rfl) rfl⟩
      · contradiction
  | callback r =>
      unfold calStep at taken
      dsimp only at taken
      split at taken
      · rename_i isReceiver
        exact
          inPhase_callbackStep inPhase (Nat.lt_of_lt_of_le isReceiver config.total.leMax)
            current taken
      · contradiction
  | thread => exact inPhase_threadStep inPhase taken

/-- What a phase says where the thread computes an offset or changes the mask. -/
theorem InPhase.attributes
    (inPhase : InPhase config s phase)
    (action : CalAction) :
    Attributes s action := by
  cases action with
  | deliver | callback => exact ⟨trivial, trivial⟩
  | thread =>
      have stands := inPhase.thread
      unfold Attributes OwnBuffer ClearsBit CalThread.OwnBuffer CalThread.ClearsBit
      cases place : s.thread with
      | fft r left =>
          rw [place] at stands
          cases stands with
          | fft =>
              exact ⟨⟨inPhase.tuned r (by rw [place]; rfl), inPhase.buffer r rfl⟩, trivial⟩
      | writeMask r mask =>
          rw [place] at stands
          cases stands with
          | writeMask isMarked _ =>
              refine ⟨trivial, inPhase.marked r rfl, ?_⟩
              rw [Nat.testBit_xor, FlagWord.testBit_one_shiftLeft, isMarked]
              simp
      | _ => exact ⟨trivial, trivial⟩

end Steps

end LibRtlSdr.Hpsdr
