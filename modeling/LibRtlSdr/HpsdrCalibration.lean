import LibRtlSdr.HpsdrConfig
import LibRtlSdr.PartialRun
import Mathlib.Logic.Function.Basic

namespace LibRtlSdr.Hpsdr

/-!
# The calibration of the dongles

The callbacks of the dongles and the calibration thread hand each other the receiver to
calibrate and a buffer of its samples, by `cal_state`, `cal_rcvr`, `cal_rcvr_mask` and
`fft_buf`.  Every access to one of these is a step of its own.  A callback takes
`do_cal_lock` for two of its assignments to `cal_state`, and for none of its tests.  The
runs are those with a calibration frequency, before the exit, and between two readings of
the configuration.
-/

/-! ## Source -/

/-- `CAL_STATE_EXIT`. -/
def calStateExit : Int :=
  maxRcvrs

/-- `CAL_STATE_0`: no receiver is calibrated. -/
def calState0 : Int :=
  -1

/-- `CAL_STATE_1`: the dongle is tuned to the calibration frequency. -/
def calState1 : Int :=
  -2

/-- `CAL_STATE_2`: a buffer is handed over. -/
def calState2 : Int :=
  -3

/-- `CAL_STATE_3`: the offset is computed. -/
def calState3 : Int :=
  -4

/-- `FFT_SIZE`. -/
def fftSize : Nat :=
  65536

/-- The reads of `fft_buf` in the loops of the transform.  The quotient of the two sizes
is 0 as they stand, so that the loop makes no turn. -/
def fftReads : Nat :=
  rtlReadCount / 2 / fftSize * (2 * fftSize)

/-- A buffer of a dongle, with how often the dongle was tuned to the calibration frequency
before it was delivered. -/
structure CalBuffer where
  rcvrNum : Nat
  tunings : Nat
  deriving DecidableEq

/-- The next access of a callback; `tunings` belongs to the buffer it was called with. -/
inductive CalCallback where
  | idle
  /-- `cal_rcvr < 0`. -/
  | testFree (tunings : Nat)
  /-- `cal_rcvr == rcb->rcvr_num`. -/
  | testOwn (tunings : Nat)
  | testState0 (tunings : Nat)
  | testDue
  | setRcvr
  | setRequest
  | testState1 (tunings : Nat)
  | setFftBuf (tunings : Nat)
  | setState2
  | testState3
  | setState0
  | clearRcvr
  | testCleared
  | testEmpty
  | resetMask
  deriving DecidableEq

/-- The next access of `do_cal_thr_func`, with the receiver that it works on. -/
inductive CalThread where
  /-- In front of the lock, or in `pthread_cond_wait`. -/
  | waitRequest
  | testRequest
  | testExit
  | pick
  | tune (rcvrNum : Nat)
  | lockState1 (rcvrNum : Nat)
  | setState1 (rcvrNum : Nat)
  | testState1 (rcvrNum : Nat)
  /-- In `pthread_cond_wait`. -/
  | waitBuffer (rcvrNum : Nat)
  | testExit2 (rcvrNum : Nat)
  /-- In the loops of the transform, with the reads that are left. -/
  | fft (rcvrNum left : Nat)
  | readMask (rcvrNum : Nat)
  | writeMask (rcvrNum mask : Nat)
  | setState3 (rcvrNum : Nat)
  | exited
  deriving DecidableEq

/-- The thread holds `do_cal_lock` in front of these accesses. -/
def CalThread.holdsLock : CalThread → Bool
  | .testRequest => true
  | .setState1 _ => true
  | .testState1 _ => true
  | _ => false

/-- The receivers of a run: `mcb.total_num_rcvrs` and `mcb.rcvrs_mask`. -/
structure CalConfig where
  total : RcvrTotal
  rcvrsMask : Nat

/-- The shared variables, and where the thread and the callbacks stand. -/
structure Calibration where
  calState : Int
  calRcvr : Int
  calRcvrMask : Nat
  /-- Null before the first buffer. -/
  fftBuf : Option CalBuffer
  calCount : Nat → Nat
  doCalTime : Nat
  /-- How often a dongle was tuned to the calibration frequency. -/
  tunings : Nat → Nat
  thread : CalThread
  callback : Nat → CalCallback

/-- Before the first callback.  The mask is 0 until a request activates receivers. -/
def Calibration.initial (config : CalConfig) (activated : Bool) : Calibration where
  calState := calState0
  calRcvr := -1
  calRcvrMask := if activated then config.rcvrsMask else 0
  fftBuf := none
  calCount _ := 0
  doCalTime := 5
  tunings _ := 0
  thread := .waitRequest
  callback _ := .idle

/-- The callback goes on at another access. -/
def Calibration.goes (s : Calibration) (r : Nat) (next : CalCallback) : Calibration :=
  { s with callback := Function.update s.callback r next }

@[simp] theorem Calibration.goes_callback (s : Calibration) (r : Nat) (next : CalCallback) :
    (s.goes r next).callback r = next := by
  simp [goes]

@[simp] theorem Calibration.goes_goes
    (s : Calibration)
    (r : Nat)
    (between next : CalCallback) :
    (s.goes r between).goes r next = s.goes r next := by
  simp [goes]

/-- `rtlsdr_callback` begins with a new buffer. -/
def deliver (r : Nat) (s : Calibration) : Calibration :=
  { s with calCount := Function.update s.calCount r (s.calCount r + 1) }.goes r
    (.testFree (s.tunings r))

/-- The next access of the callback of a receiver. -/
def callbackStep (config : CalConfig) (r : Nat) (s : Calibration) : Option Calibration :=
  match s.callback r with
  | .idle => none
  | .testFree tunings =>
      some (s.goes r (if s.calRcvr < 0 then .testState0 tunings else .testOwn tunings))
  | .testOwn tunings =>
      some (s.goes r (if s.calRcvr = r then .testState0 tunings else .idle))
  | .testState0 tunings =>
      some (s.goes r (if s.calState = calState0 then .testDue else .testState1 tunings))
  | .testDue =>
      some
        (s.goes r
          (if s.calRcvrMask.testBit r && s.calCount r > s.doCalTime * 20 then
            .setRcvr
          else
            .testEmpty))
  | .setRcvr =>
      some ({ s with calRcvr := r }.goes r .setRequest)
  | .setRequest =>
      if s.thread.holdsLock then
        none
      else
        some ({ s with calState := r }.goes r .testEmpty)
  | .testState1 tunings =>
      some (s.goes r (if s.calState = calState1 then .setFftBuf tunings else .testState3))
  | .setFftBuf tunings =>
      some ({ s with fftBuf := some ⟨r, tunings⟩ }.goes r .setState2)
  | .setState2 =>
      if s.thread.holdsLock then
        none
      else
        some ({ s with calState := calState2 }.goes r .idle)
  | .testState3 =>
      some (s.goes r (if s.calState = calState3 then .setState0 else .testEmpty))
  | .setState0 =>
      some ({ s with calState := calState0 }.goes r .clearRcvr)
  | .clearRcvr =>
      some ({ s with calRcvr := -1 }.goes r .testCleared)
  | .testCleared =>
      some
        ({ s with
          calCount :=
            if s.calRcvrMask.testBit r then
              s.calCount
            else
              Function.update s.calCount r 0 }.goes r .testEmpty)
  | .testEmpty =>
      some (s.goes r (if s.calRcvrMask = 0 then .resetMask else .idle))
  | .resetMask =>
      some
        ({ s with
          calRcvrMask := config.rcvrsMask
          doCalTime := if s.doCalTime ≥ 1800 then 1800 else s.doCalTime + 180 }.goes r .idle)

/-- The next access of the calibration thread. -/
def threadStep (s : Calibration) : Option Calibration :=
  match s.thread with
  | .waitRequest =>
      some { s with thread := .testRequest }
  | .testRequest =>
      some { s with thread := if s.calState < 0 then .waitRequest else .testExit }
  | .testExit =>
      some { s with thread := if s.calState = calStateExit then .exited else .pick }
  | .pick =>
      -- `mcb.rcb` has an entry for each receiver
      if 0 ≤ s.calState ∧ s.calState < maxRcvrs then
        some { s with thread := .tune s.calState.toNat }
      else
        none
  | .tune r =>
      some
        { s with
          tunings := Function.update s.tunings r (s.tunings r + 1)
          thread := .lockState1 r }
  | .lockState1 r =>
      some { s with thread := .setState1 r }
  | .setState1 r =>
      some { s with calState := calState1, thread := .testState1 r }
  | .testState1 r =>
      some { s with thread := if s.calState = calState1 then .waitBuffer r else .testExit2 r }
  | .waitBuffer r =>
      some { s with thread := .testState1 r }
  | .testExit2 r =>
      some { s with thread := if s.calState = calStateExit then .exited else .fft r fftReads }
  | .fft r 0 =>
      some { s with thread := .readMask r }
  | .fft r (left + 1) =>
      some { s with thread := .fft r left }
  | .readMask r =>
      some { s with thread := .writeMask r s.calRcvrMask }
  | .writeMask r mask =>
      some { s with calRcvrMask := mask ^^^ 1 <<< r, thread := .setState3 r }
  | .setState3 _ =>
      some { s with calState := calState3, thread := .waitRequest }
  | .exited => none

/-- The steps of a run. -/
inductive CalAction where
  /-- The dongle of a receiver delivers a buffer, and its callback is called. -/
  | deliver (r : Nat)
  | callback (r : Nat)
  | thread
  deriving DecidableEq

/-- A step of the system. -/
def calStep (config : CalConfig) (s : Calibration) : CalAction → Option Calibration
  | .deliver r =>
      if r < config.total.count ∧ s.callback r = .idle then some (deliver r s) else none
  | .callback r => if r < config.total.count then callbackStep config r s else none
  | .thread => threadStep s

/-! ## What a calibration promises -/

/-- Where the thread computes an offset, `fft_buf` was delivered by the dongle of that
receiver, and that after it was tuned. -/
def CalThread.OwnBuffer (s : Calibration) : CalThread → Prop
  | .fft r _ => 0 < s.tunings r ∧ s.fftBuf = some ⟨r, s.tunings r⟩
  | _ => True

/-- Where the thread changes the mask, the bit of the receiver goes from 1 to 0. -/
def CalThread.ClearsBit (s : Calibration) : CalThread → Prop
  | .writeMask r mask =>
      s.calRcvrMask.testBit r = true ∧ (mask ^^^ 1 <<< r).testBit r = false
  | _ => True

/-- A step of the thread that computes an offset reads the receiver's own buffer. -/
def OwnBuffer (s : Calibration) : CalAction → Prop
  | .thread => s.thread.OwnBuffer s
  | _ => True

/-- A step of the thread that changes the mask clears the bit of the receiver. -/
def ClearsBit (s : Calibration) : CalAction → Prop
  | .thread => s.thread.ClearsBit s
  | _ => True

/-- The thread attributes an offset to the receiver that the buffer came from. -/
def Attributes (s : Calibration) (action : CalAction) : Prop :=
  OwnBuffer s action ∧ ClearsBit s action

/-- The tests on `cal_rcvr` of a callback still hold. -/
def MayEnter (s : Calibration) (r : Nat) : Prop :=
  s.calRcvr < 0 ∨ s.calRcvr = r

/-- In front of the first assignment of a branch the tests that led the callback there
still hold, and a buffer that it hands over was delivered after its dongle was tuned. -/
def CalCallback.Current (s : Calibration) (r : Nat) : CalCallback → Prop
  | .setRcvr => MayEnter s r ∧ s.calState = calState0 ∧ s.calRcvrMask.testBit r = true
  | .setFftBuf tunings => MayEnter s r ∧ s.calState = calState1 ∧ tunings = s.tunings r
  | .setState0 => MayEnter s r ∧ s.calState = calState3
  | _ => True

/-- A callback that makes an assignment is still led there by its tests. -/
def Current (s : Calibration) : CalAction → Prop
  | .callback r => (s.callback r).Current s r
  | _ => True

instance CalThread.decidableOwnBuffer (s : Calibration) :
    (thread : CalThread) → Decidable (thread.OwnBuffer s)
  | .fft _ _ => inferInstanceAs (Decidable (_ ∧ _))
  | .waitRequest | .testRequest | .testExit | .pick | .tune _ | .lockState1 _ | .setState1 _
  | .testState1 _ | .waitBuffer _ | .testExit2 _ | .readMask _ | .writeMask _ _
  | .setState3 _ | .exited => .isTrue trivial

instance CalThread.decidableClearsBit (s : Calibration) :
    (thread : CalThread) → Decidable (thread.ClearsBit s)
  | .writeMask _ _ => inferInstanceAs (Decidable (_ ∧ _))
  | .waitRequest | .testRequest | .testExit | .pick | .tune _ | .lockState1 _ | .setState1 _
  | .testState1 _ | .waitBuffer _ | .testExit2 _ | .fft _ _ | .readMask _ | .setState3 _
  | .exited => .isTrue trivial

instance decidableOwnBuffer (s : Calibration) :
    (action : CalAction) → Decidable (OwnBuffer s action)
  | .thread => s.thread.decidableOwnBuffer s
  | .deliver _ | .callback _ => .isTrue trivial

instance decidableClearsBit (s : Calibration) :
    (action : CalAction) → Decidable (ClearsBit s action)
  | .thread => s.thread.decidableClearsBit s
  | .deliver _ | .callback _ => .isTrue trivial

instance decidableMayEnter (s : Calibration) (r : Nat) : Decidable (MayEnter s r) :=
  inferInstanceAs (Decidable (_ ∨ _))

instance CalCallback.decidableCurrent (s : Calibration) (r : Nat) :
    (place : CalCallback) → Decidable (place.Current s r)
  | .setRcvr => inferInstanceAs (Decidable (_ ∧ _ ∧ _))
  | .setFftBuf _ => inferInstanceAs (Decidable (_ ∧ _ ∧ _))
  | .setState0 => inferInstanceAs (Decidable (_ ∧ _))
  | .idle | .testFree _ | .testOwn _ | .testState0 _ | .testDue | .setRequest
  | .testState1 _ | .setState2 | .testState3 | .clearRcvr | .testCleared | .testEmpty
  | .resetMask => .isTrue trivial

instance decidableCurrent (s : Calibration) :
    (action : CalAction) → Decidable (Current s action)
  | .callback r => (s.callback r).decidableCurrent s r
  | .deliver _ | .thread => .isTrue trivial

end LibRtlSdr.Hpsdr
