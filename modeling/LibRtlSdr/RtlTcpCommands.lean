import LibRtlSdr.BoundedBuffer
import LibRtlSdr.FixedRecords
import LibRtlSdr.PartialRun
import Mathlib.Logic.Function.Basic

namespace LibRtlSdr.RtlTcp

open BoundedBuffer FixedRecords PartialRun

/-!
# The commands of a client of `rtl_tcp`

A client sends commands of five bytes: a code and a parameter in network byte
order.  The command worker collects them in one packed structure from whatever
pieces the socket delivers, with timeouts in between, and calls the driver for
each complete structure.
-/

/-- The calls into the driver that commands make. -/
inductive DriverCall where
  | setCenterFreq (freq : UInt32)
  | setSampleRate (rate : UInt32)
  | setTunerGainMode (manual : Int32)
  | setTunerGain (gain : Int32)
  | setFreqCorrection (ppm : Int32)
  | setTunerIfGain (stage gain : Int32)
  | setTestmode (on : Int32)
  | setAgcMode (on : Int32)
  | setDirectSampling (on : Int32)
  | setOffsetTuning (on : Int32)
  | setXtalFreq (rtlFreq tunerFreq : UInt32)
  | setGainByIndex (index : UInt32)
  | setBiasTee (on : Int32)
  deriving DecidableEq

/-- The `switch` of the command worker; other codes do nothing. -/
def driverCall? (command : UInt8 × UInt32) : Option DriverCall :=
  match command.1.toNat with
  | 0x01 => some (.setCenterFreq command.2)
  | 0x02 => some (.setSampleRate command.2)
  | 0x03 => some (.setTunerGainMode command.2.toInt32)
  | 0x04 => some (.setTunerGain command.2.toInt32)
  | 0x05 => some (.setFreqCorrection command.2.toInt32)
  | 0x06 =>
      some (.setTunerIfGain (command.2 >>> 16).toInt32
        (command.2 &&& 0xffff).toUInt16.toInt16.toInt32)
  | 0x07 => some (.setTestmode command.2.toInt32)
  | 0x08 => some (.setAgcMode command.2.toInt32)
  | 0x09 => some (.setDirectSampling command.2.toInt32)
  | 0x0a => some (.setOffsetTuning command.2.toInt32)
  | 0x0b => some (.setXtalFreq command.2 0)
  | 0x0c => some (.setXtalFreq 0 command.2)
  | 0x0d => some (.setGainByIndex command.2)
  | 0x0e => some (.setBiasTee command.2.toInt32)
  | _ => none

/-- `sizeof(struct command)`. -/
def commandSize : Nat :=
  5

/-- `ntohl` of four bytes in memory: the first one is the highest. -/
def ntohl (first second third fourth : UInt8) : UInt32 :=
  first.toUInt32 <<< 24 ||| second.toUInt32 <<< 16 |||
    third.toUInt32 <<< 8 ||| fourth.toUInt32

/-- The code and the parameter that a record of five bytes stands for. -/
def decode (record : List UInt8) : UInt8 × UInt32 :=
  (record.getD 0 0,
    ntohl (record.getD 1 0) (record.getD 2 0) (record.getD 3 0)
      (record.getD 4 0))

/-- What `select` and `recv` can bring. -/
inductive Arrival where
  | timeout
  | received (bytes : List UInt8)
  | failed

/-- A pass of the command worker, or a request of another thread to exit. -/
inductive Event where
  | pass (arrival : Arrival)
  | requestExit

/-- The bytes of the client that an event delivers. -/
def Event.bytes : Event → List UInt8
  | .pass (.received bytes) => bytes
  | _ => []

/-- The stream that the events deliver. -/
def stream (events : List Event) : List UInt8 :=
  events.flatMap Event.bytes

/-- A piece of the stream, or a timeout. -/
inductive Event.IsInput : Event → Prop where
  | timeout : Event.IsInput (.pass .timeout)
  | received (bytes : List UInt8) : Event.IsInput (.pass (.received bytes))

/-- The variables of the command worker, and what it has done so far. -/
structure CommandWorker where
  left : Int
  received : Int
  /-- The packed structure, as bytes in memory. -/
  cmd : Nat → UInt8
  doExit : Bool
  exited : Bool
  /-- The codes and parameters at which the `switch` was reached. -/
  dispatched : List (UInt8 × UInt32)
  calls : List DriverCall

namespace CommandWorker

/-- The worker before it waits for the first time. -/
def start : CommandWorker :=
  { left := commandSize
    received := 0
    cmd := fun _ => 0
    doExit := false
    exited := false
    dispatched := []
    calls := [] }

/-- What a successful `recv` stores, behind what is already there. -/
def store (worker : CommandWorker) (bytes : List UInt8) : CommandWorker :=
  { worker with
    received := bytes.length
    left := worker.left - bytes.length
    cmd := blit (commandSize - worker.left).toNat bytes worker.cmd }

/-- `select` and `recv`: a timeout leaves `received` as it was. -/
def receive (worker : CommandWorker) : Arrival → Option CommandWorker
  | .timeout =>
      some worker
  | .received bytes =>
      if (bytes.length : Int) ≤ worker.left then
        some (worker.store bytes)
      else
        none
  | .failed =>
      some { worker with received := -1, left := worker.left - -1 }

/-- The code and the parameter in the packed structure. -/
def command (worker : CommandWorker) : UInt8 × UInt32 :=
  (worker.cmd 0,
    ntohl (worker.cmd 1) (worker.cmd 2) (worker.cmd 3) (worker.cmd 4))

/-- The `switch`, and the start of the next record. -/
def dispatch (worker : CommandWorker) : CommandWorker :=
  { worker with
    left := commandSize
    cmd := Function.update worker.cmd 0 0xff
    dispatched := worker.dispatched ++ [worker.command]
    calls := worker.calls ++ (driverCall? worker.command).toList }

/-- What follows `recv` in a pass of the inner loop. -/
def afterReceive (worker : CommandWorker) : CommandWorker :=
  if worker.received = -1 ∨ worker.doExit then
    { worker with doExit := true, exited := true }
  else if 0 < worker.left then
    worker
  else
    worker.dispatch

/-- One pass of the inner loop, or a request to exit between two passes. -/
def step (worker : CommandWorker) : Event → Option CommandWorker
  | .pass arrival =>
      if worker.exited then
        none
      else
        (worker.receive arrival).map afterReceive
  | .requestExit =>
      some { worker with doExit := true }

/-- The first bytes of the structure are those that are pending of the stream. -/
structure Reassembles (stream : List UInt8) (worker : CommandWorker) : Prop where
  received : worker.received ≠ -1
  stays : worker.doExit = false
  left : worker.left = commandSize - (pending commandSize stream).length
  filled :
    window worker.cmd 0 (pending commandSize stream).length =
      pending commandSize stream
  dispatched : worker.dispatched = (records commandSize stream).map decode
  calls : worker.calls = worker.dispatched.filterMap driverCall?

theorem start_reassembles : start.Reassembles [] := by
  have empty :
      records commandSize ([] : List UInt8) = [] ∧
        pending commandSize ([] : List UInt8) = [] :=
    records_of_short (by decide)
  constructor
  · decide
  · rfl
  · rw [empty.2]
    rfl
  · rw [empty.2]
    rfl
  · rw [empty.1]
    rfl
  · rfl

/-- A structure that a record fills is dispatched as this record. -/
theorem command_of_window
    {worker : CommandWorker}
    {record : List UInt8}
    (filled : window worker.cmd 0 commandSize = record) :
    worker.command = decode record := by
  rw [← filled]
  rfl

namespace Reassembles

variable {worker next : CommandWorker} {stream bytes : List UInt8}

/-- The next bytes go behind the pending ones. -/
theorem filled_append
    (reassembles : worker.Reassembles stream)
    (bytes : List UInt8) :
    window (worker.store bytes).cmd 0
        (pending commandSize stream ++ bytes).length =
      pending commandSize stream ++ bytes := by
  have offset :
      (commandSize - worker.left).toNat =
        (pending commandSize stream).length := by
    rw [reassembles.left]
    omega
  have appended :=
    window_blit_append 0 (pending commandSize stream).length bytes worker.cmd
  rw [Nat.zero_add, reassembles.filled] at appended
  rw [store, offset, List.length_append]
  exact appended

theorem store_received (bytes : List UInt8) :
    (worker.store bytes).received ≠ -1 := by
  intro failed
  have negative : (bytes.length : Int) = -1 := failed
  omega

/-- What is left to receive when some bytes are stored. -/
theorem store_left
    (reassembles : worker.Reassembles stream)
    (bytes : List UInt8) :
    (worker.store bytes).left =
      commandSize - (pending commandSize stream ++ bytes).length := by
  have left : (worker.store bytes).left = worker.left - bytes.length :=
    rfl
  rw [left, reassembles.left, List.length_append]
  omega

/-- Part of a record makes the worker wait for the rest. -/
theorem store_short
    (reassembles : worker.Reassembles stream)
    (short : (pending commandSize stream ++ bytes).length < commandSize) :
    (worker.store bytes).Reassembles (stream ++ bytes) := by
  have appended := records_append_of_short short
  constructor
  · exact store_received bytes
  · exact reassembles.stays
  · rw [appended.2]
    exact reassembles.store_left bytes
  · rw [appended.2]
    exact reassembles.filled_append bytes
  · rw [appended.1]
    exact reassembles.dispatched
  · exact reassembles.calls

/-- The last part of a record is followed by its dispatch. -/
theorem store_complete
    (reassembles : worker.Reassembles stream)
    (complete : (pending commandSize stream ++ bytes).length = commandSize) :
    (worker.store bytes).dispatch.Reassembles (stream ++ bytes) := by
  have appended := records_append_of_complete (by decide) complete
  have filled := reassembles.filled_append bytes
  rw [complete] at filled
  have command := command_of_window filled
  have received : (worker.store bytes).received ≠ -1 :=
    store_received bytes
  constructor
  · exact received
  · exact reassembles.stays
  · rw [appended.2]
    rfl
  · rw [appended.2]
    rfl
  · rw [appended.1, List.map_append, ← reassembles.dispatched, dispatch,
      command]
    rfl
  · have calls : (worker.store bytes).calls =
        (worker.store bytes).dispatched.filterMap driverCall? :=
      reassembles.calls
    rw [dispatch, command, calls, List.filterMap_append]
    rfl

/-- A worker that goes on has neither failed nor been asked to exit. -/
theorem not_exits (reassembles : worker.Reassembles stream) :
    ¬ (worker.received = -1 ∨ worker.doExit = true) := by
  rintro (failed | exits)
  · exact reassembles.received failed
  · exact Bool.false_ne_true (reassembles.stays.symm.trans exits)

/-- A structure that is not full lets the worker wait. -/
theorem afterReceive_waiting (reassembles : worker.Reassembles stream) :
    worker.afterReceive = worker := by
  have inRecord : (pending commandSize stream).length < commandSize :=
    length_pending_lt (by decide) stream
  have waiting : 0 < worker.left := by
    rw [reassembles.left]
    omega
  rw [afterReceive, if_neg reassembles.not_exits, if_pos waiting]

/-- After the last part of a record the worker dispatches it. -/
theorem afterReceive_store_complete
    (reassembles : worker.Reassembles stream)
    (complete : (pending commandSize stream ++ bytes).length = commandSize) :
    (worker.store bytes).afterReceive = (worker.store bytes).dispatch := by
  have goesOn :
      ¬ ((worker.store bytes).received = -1 ∨
        (worker.store bytes).doExit = true) := by
    rintro (failed | exits)
    · exact store_received bytes failed
    · exact Bool.false_ne_true (reassembles.stays.symm.trans exits)
  have full : ¬ 0 < (worker.store bytes).left := by
    rw [reassembles.store_left, complete]
    omega
  rw [afterReceive, if_neg goesOn, if_neg full]

/-- One pass that brings a piece of the stream or a timeout keeps the records together. -/
theorem step
    (reassembles : worker.Reassembles stream)
    {event : Event}
    (isInput : event.IsInput)
    (taken : worker.step event = some next) :
    next.Reassembles (stream ++ event.bytes) := by
  cases isInput with
  | timeout =>
      rw [CommandWorker.step] at taken
      split at taken
      · cases taken
      · rw [receive, Option.map_some, reassembles.afterReceive_waiting]
          at taken
        cases taken
        rw [Event.bytes, List.append_nil]
        · exact reassembles
        · exact nofun
  | received bytes =>
      rw [CommandWorker.step] at taken
      split at taken
      · cases taken
      · rw [receive] at taken
        split at taken
        · rename_i _ inRoom
          have within :
              (pending commandSize stream ++ bytes).length ≤ commandSize := by
            rw [reassembles.left] at inRoom
            rw [List.length_append]
            omega
          rw [Option.map_some] at taken
          rcases Nat.lt_or_eq_of_le within with short | complete
          · have stored := reassembles.store_short short
            rw [stored.afterReceive_waiting] at taken
            cases taken
            exact stored
          · have dispatched := reassembles.store_complete complete
            rw [reassembles.afterReceive_store_complete complete] at taken
            cases taken
            exact dispatched
        · cases taken

end Reassembles

/-- After any run over pieces of a stream and timeouts, the records are dispatched. -/
theorem reassembles_run
    {events : List Event}
    {worker : CommandWorker}
    (reached : run step start events = some worker)
    (inputs : ∀ event ∈ events, event.IsInput) :
    worker.Reassembles (stream events) := by
  have everyRun :
      (∀ event ∈ events, event.IsInput) →
      worker.Reassembles (stream events) := by
    apply invariant_history
      (fun history state =>
        (∀ event ∈ history, event.IsInput) →
        state.Reassembles (stream history))
      (fun _ => start_reassembles)
      ?_ reached
    intro history state event next before taken allInputs
    have beforeReassembles :=
      before fun earlier member =>
        allInputs earlier (List.mem_append_left _ member)
    have after :=
      beforeReassembles.step
        (allInputs event (List.mem_append_right _ List.mem_cons_self)) taken
    rw [stream, List.flatMap_append, List.flatMap_singleton]
    exact after
  exact everyRun inputs

/--
The command worker dispatches the complete records of the client's stream, in
their order, however the stream is cut; two runs over the same bytes make the
same calls.
-/
theorem dispatched_eq_records
    (events : List Event)
    (worker : CommandWorker)
    (reached : run step start events = some worker)
    (inputs : ∀ event ∈ events, event.IsInput) :
    worker.dispatched = (records commandSize (stream events)).map decode ∧
      worker.calls =
        ((records commandSize (stream events)).map decode).filterMap
          driverCall? ∧
      ∀ otherEvents other,
        run step start otherEvents = some other →
        (∀ event ∈ otherEvents, event.IsInput) →
        stream otherEvents = stream events →
        other.dispatched = worker.dispatched ∧ other.calls = worker.calls := by
  have reassembles := reassembles_run reached inputs
  refine ⟨reassembles.dispatched,
    reassembles.dispatched ▸ reassembles.calls, ?_⟩
  intro otherEvents other reachedOther otherInputs same
  have others := reassembles_run reachedOther otherInputs
  have sameDispatched : other.dispatched = worker.dispatched := by
    rw [others.dispatched, reassembles.dispatched, same]
  refine ⟨sameDispatched, ?_⟩
  rw [others.calls, reassembles.calls, sameDispatched]

/-- A tuning command to 100 MHz in three pieces, and the start of another command. -/
def tuningEvents : List Event :=
  [.pass (.received [0x01, 0x05]), .pass .timeout,
    .pass (.received [0xf5, 0xe1]), .pass (.received [0x00]),
    .pass (.received [0x02]), .pass .timeout]

/-- The pieces tune once; the incomplete command does nothing. -/
theorem dispatched_eq_records_tuning :
    ∃ worker,
      run step start tuningEvents = some worker ∧
        worker.dispatched = [(0x01, 100000000)] ∧
        worker.calls = [.setCenterFreq 100000000] := by
  have inputs : ∀ event ∈ tuningEvents, event.IsInput := by
    simp [tuningEvents, Event.IsInput.timeout, Event.IsInput.received]
  have cut :
      (records commandSize (stream tuningEvents)).map decode =
        [(0x01, 100000000)] := by
    simp [records, stream, tuningEvents, Event.bytes, commandSize, decode,
      ntohl]
    decide
  have ran :
      ∃ worker, run step start tuningEvents = some worker :=
    ⟨_, rfl⟩
  rcases ran with ⟨worker, reached⟩
  have dispatched := dispatched_eq_records tuningEvents worker reached inputs
  rw [cut] at dispatched
  exact ⟨worker, reached, dispatched.1, dispatched.2.1⟩

end CommandWorker

end LibRtlSdr.RtlTcp
