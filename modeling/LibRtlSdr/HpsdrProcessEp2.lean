import LibRtlSdr.FlagWord
import LibRtlSdr.HpsdrConfig
import LibRtlSdr.OverlayWrites
import LibRtlSdr.PartialRun

namespace LibRtlSdr.Hpsdr

/-!
# The PC-to-SDR packet handler `process_ep2`

An EP2 datagram holds two USB frames of 512 bytes.  Each has five control bytes
`C0..C4`; `C0` selects the command: zero carries the output rate and the number
of receivers, an even value from four on carries the frequency of one receiver.
`process_ep2` reads both frames in a loop of two passes and updates the global
configuration.  This module is that function, with the globals it reads and
writes gathered in `Ep2State`.  The receive time stamps `mcb.freq_ltime` and the
field `rcb[i].output_rate` are left out: no code that is compiled reads them.
-/

/-- The receive buffer `buffer`, by byte position. -/
abbrev Ep2Buffer := Nat → UInt8

/-- The globals that `process_ep2` reads and writes. -/
structure Ep2State where
  activeNumRcvrs : Nat
  numCopyRcvrs : Nat
  rcvrsMask : Nat
  nsampsPacket : Nat
  frameOffset1 : Nat
  frameOffset2 : Nat
  outputRate : OutputRate
  calRcvrMask : Nat
  /-- `mcb.rcb[i].rcvr_mask`. -/
  rcvrMask : Nat → Nat
  /-- `mcb.rcb[i].new_freq`. -/
  newFreq : Nat → BitVec 32
  lastFreq : Nat → BitVec 32
  copyRcvr : Nat → Int
  lastRate : UInt8
  lastNumRcvrs : UInt8

namespace Ep2State

/-- The globals after the set-up in `main`: the first receiver is enabled. -/
def initial : Ep2State where
  activeNumRcvrs := 1
  numCopyRcvrs := 0
  rcvrsMask := 1
  nsampsPacket := Hpsdr.nsampsPacket 0
  frameOffset1 := Hpsdr.frameOffset1 0
  frameOffset2 := Hpsdr.frameOffset2 0
  outputRate := .hz48000
  calRcvrMask := 0
  rcvrMask := fun rcvr => if rcvr = 0 then 1 else 0
  newFreq := fun _ => 0
  lastFreq := fun _ => 0
  copyRcvr := fun _ => -1
  lastRate := 0
  lastNumRcvrs := 0

end Ep2State

/--
The two masked control bytes of a config frame, `buffer[12 + offset] & 3` and
`buffer[15 + offset] & 0x38`.
-/
structure ConfigRequest where
  rateBits : UInt8
  countBits : UInt8
  rateMasked : rateBits &&& 3 = rateBits
  countMasked : countBits &&& 0x38 = countBits
  deriving DecidableEq

namespace ConfigRequest

/-- Read the config bytes of the frame at `offset`. -/
def ofFrame (buffer : Ep2Buffer) (offset : Nat) : ConfigRequest where
  rateBits :=
    buffer (12 + offset) &&& 3
  countBits :=
    buffer (15 + offset) &&& 0x38
  rateMasked := by
    rw [UInt8.and_assoc, UInt8.and_self]
  countMasked := by
    rw [UInt8.and_assoc, UInt8.and_self]

/-- `num_rcvrs`: the number of receivers that the count bits ask for. -/
def numRcvrs (request : ConfigRequest) : Nat :=
  (request.countBits >>> 3).toNat + 1

end ConfigRequest

/-- The `switch` over `last_rate`; other values leave `mcb.output_rate` alone. -/
def rateOfBits (rateBits : UInt8) (current : OutputRate) : OutputRate :=
  if rateBits = 3 then
    .hz384000
  else if rateBits = 2 then
    .hz192000
  else if rateBits = 1 then
    .hz96000
  else if rateBits = 0 then
    .hz48000
  else
    current

/-- Update the output rate when the rate bits differ from the last ones. -/
def configureRate
    (request : ConfigRequest)
    (state : Ep2State) :
    Ep2State :=
  if state.lastRate ≠ request.rateBits then
    { state with
      lastRate := request.rateBits
      outputRate := rateOfBits request.rateBits state.outputRate }
  else
    state

/-- `mcb.rcvrs_mask` after the loop that enables receivers `1 .. active - 1`. -/
def enabledMask (active : Nat) : Nat :=
  (List.range' 1 (active - 1)).foldl (fun mask i => mask ||| 1 <<< i) 1

/-- The two loops over `rcb[i].rcvr_mask`: disable all but the first, enable the new ones. -/
def enableRcvrs
    (total active : Nat)
    (rcvrMask : Nat → Nat) :
    Nat → Nat :=
  let disabled :=
    (List.range' 1 (total - 1)).foldl
      (fun masks i => Function.update masks i 0) rcvrMask
  (List.range' 1 (active - 1)).foldl
    (fun masks i => Function.update masks i (1 <<< i)) disabled

/-- The loop that marks the entries `active .. num_rcvrs - 1` as copies. -/
def markCopies
    (active numRcvrs : Nat)
    (copyRcvr : Nat → Int) :
    Nat → Int :=
  (List.range' active (numRcvrs - active)).foldl
    (fun copies i => Function.update copies i (i : Int)) copyRcvr

/-- Install a receiver count that differs from the last one. -/
def installRcvrs
    (total : RcvrTotal)
    (countBits : UInt8)
    (numRcvrs : Nat)
    (state : Ep2State) :
    Ep2State :=
  let numCopyRcvrs :=
    if numRcvrs ≤ total.count then 0 else numRcvrs - total.count
  let active :=
    if numRcvrs ≤ total.count then numRcvrs else total.count
  { state with
    lastNumRcvrs := countBits
    numCopyRcvrs := numCopyRcvrs
    activeNumRcvrs := active
    nsampsPacket := nsampsPacket (active - 1)
    frameOffset1 := frameOffset1 (active - 1)
    frameOffset2 := frameOffset2 (active - 1)
    rcvrsMask := enabledMask active
    rcvrMask := enableRcvrs total.count active state.rcvrMask
    calRcvrMask := enabledMask active
    copyRcvr :=
      if 0 < numCopyRcvrs then
        markCopies active numRcvrs state.copyRcvr
      else
        state.copyRcvr }

/--
Update the receiver configuration when the count bits differ from the last
ones.  There is no result when the program stops its threads and calls
`exit (-1)` because more than `MAX_RCVRS` receivers were asked for.
-/
def configureRcvrs
    (total : RcvrTotal)
    (request : ConfigRequest)
    (state : Ep2State) :
    Option Ep2State :=
  if state.lastNumRcvrs ≠ request.countBits then
    if request.numRcvrs > maxRcvrs then
      none
    else
      some (installRcvrs total request.countBits request.numRcvrs state)
  else
    some state

/-- The config part of a pass. -/
def configure
    (total : RcvrTotal)
    (request : ConfigRequest)
    (state : Ep2State) :
    Option Ep2State :=
  configureRcvrs total request (configureRate request state)

/-- The frequency in the control bytes `C1..C4` of the frame at `offset`. -/
def freqWord (buffer : Ep2Buffer) (offset : Nat) : BitVec 32 :=
  (buffer (12 + offset)).toBitVec.setWidth 32 <<< 24 |||
    (buffer (13 + offset)).toBitVec.setWidth 32 <<< 16 |||
    (buffer (14 + offset)).toBitVec.setWidth 32 <<< 8 |||
    (buffer (15 + offset)).toBitVec.setWidth 32

/-- Store a new frequency of receiver `j`; a repeated one and zero are dropped. -/
def storeFreq
    (total : RcvrTotal)
    (j : Nat)
    (freq : BitVec 32)
    (state : Ep2State) :
    Ep2State :=
  if state.lastFreq j ≠ freq ∧ 0 ≠ freq then
    { state with
      newFreq :=
        if j < total.count then
          Function.update state.newFreq j freq
        else
          state.newFreq
      lastFreq := Function.update state.lastFreq j freq }
  else
    state

/-- `C0` of the frame at `offset`, without the transmit bit. -/
def controlByte (buffer : Ep2Buffer) (offset : Nat) : Nat :=
  (buffer (11 + offset) &&& 0xFE).toNat

/-- The addresses `4, 6, .., 4 + (total - 1) * 2` carry frequencies. -/
def FreqAddress (total : RcvrTotal) (c0 : Nat) : Prop :=
  4 ≤ c0 ∧ c0 ≤ 4 + (total.count - 1) * 2

instance (total : RcvrTotal) (c0 : Nat) : Decidable (FreqAddress total c0) :=
  inferInstanceAs (Decidable (_ ∧ _))

/-- The frequency part of pass `c`: it looks at the frame of this pass only. -/
def tunePass
    (total : RcvrTotal)
    (buffer : Ep2Buffer)
    (c : Nat)
    (state : Ep2State) :
    Ep2State :=
  let c01 := controlByte buffer 0
  let c02 := controlByte buffer 512
  if FreqAddress total c01 ∧ c = 0 then
    storeFreq total ((c01 - 4) / 2) (freqWord buffer 0) state
  else if FreqAddress total c02 ∧ c = 1 then
    storeFreq total ((c02 - 4) / 2) (freqWord buffer 512) state
  else
    state

/-- Pass `c` of the loop.  The config part looks at both frames in each pass. -/
def processEp2Pass
    (total : RcvrTotal)
    (buffer : Ep2Buffer)
    (c : Nat)
    (state : Ep2State) :
    Option Ep2State :=
  let tuned := tunePass total buffer c state
  if controlByte buffer 0 = 0 ∨ controlByte buffer 512 = 0 then
    let offset := if controlByte buffer 0 = 0 then 0 else 512
    configure total (.ofFrame buffer offset) tuned
  else
    some tuned

/-- `process_ep2`: both passes. -/
def processEp2
    (total : RcvrTotal)
    (state : Ep2State)
    (buffer : Ep2Buffer) :
    Option Ep2State :=
  (processEp2Pass total buffer 0 state).bind
    (processEp2Pass total buffer 1)

/-- Handle a sequence of EP2 packets. -/
abbrev runEp2
    (total : RcvrTotal)
    (state : Ep2State)
    (packets : List Ep2Buffer) :
    Option Ep2State :=
  PartialRun.run (processEp2 total) state packets

end LibRtlSdr.Hpsdr
