import LibRtlSdr.LinkedCells
import LibRtlSdr.PartialRun
import Mathlib.Algebra.Order.Ring.Int
import Mathlib.Algebra.Order.Ring.Nat

namespace LibRtlSdr.RtlTcp

open LinkedCells PartialRun

/-!
# The sample stream of `rtl_tcp`

The driver's callback links each buffer behind a list that two threads share;
the worker of the connection takes the list as a whole and sends its buffers.
Both critical sections hold `ll_mutex` and are single steps here; everything
between them interleaves.  A step that would touch memory that was given back
sets `crashed`.
-/

/-- A buffer of samples; its length is a `uint32_t`. -/
structure Samples where
  bytes : List UInt8
  fits : bytes.length < 2 ^ 32

/-- A length that does not turn negative in an `int` is kept by it. -/
theorem Samples.bmod_length
    (samples : Samples)
    (nonneg : 0 ≤ (samples.bytes.length : Int).bmod (2 ^ 32)) :
    (samples.bytes.length : Int).bmod (2 ^ 32) = samples.bytes.length := by
  have fits := samples.fits
  rw [Int.bmod_def] at nonneg ⊢
  split
  · rw [Int.emod_eq_of_lt] <;> omega
  · rename_i tooLong
    rw [if_neg tooLong] at nonneg
    omega

/-- `struct llist` with the block of its `data`; both are allocated and freed together. -/
structure Buffer where
  data : Samples
  /-- The place of the buffer in the order of arrival; the program does not keep it. -/
  number : Nat

/-- Where the driver's callback stands. -/
inductive CallbackPc where
  | outside
  /-- Behind `malloc` and `memcpy`, before the lock. -/
  | filled (rpt : Nat)

/-- Where `tcp_worker` stands. -/
inductive WorkerPc where
  /-- At the head of the outer loop. -/
  | top
  /-- In `pthread_cond_timedwait`. -/
  | waiting
  /-- At the test of the loop over the taken list. -/
  | taking (curelem : Option Nat)
  /-- In the loop over one buffer. -/
  | sending (curelem : Nat) (bytesleft index bytessent : Int)
  | exited

/-- What both threads work on. -/
structure Server where
  heap : Heap Buffer
  llBuffers : Option Nat
  globalNumq : Nat
  llbufNum : Int
  doExit : Bool
  callback : CallbackPc
  worker : WorkerPc
  /-- What the socket has accepted. -/
  accepted : List UInt8
  /-- The buffers that were linked into the list, in their order. -/
  arrivals : List (List UInt8)
  /-- The numbers of the buffers that were taken out unsent. -/
  removed : List Nat
  crashed : Bool

/-- The steps of the two threads, with what the system calls bring. -/
inductive Action where
  /-- The callback allocates an element at `rpt` and copies the buffer into it. -/
  | copy (rpt : Nat) (buf : Samples)
  /-- The critical section of the callback. -/
  | enqueue
  /-- Another thread or a signal handler sets `do_exit`. -/
  | requestExit
  /-- The worker goes on from the head of its loop. -/
  | loop
  /-- `pthread_cond_timedwait` returns, not with `ETIMEDOUT`. -/
  | wake
  | condTimeout
  /-- The worker starts with the next buffer, or is through with the list. -/
  | fetch
  /-- `select` returns 0. -/
  | selectTimeout
  /-- `send` accepts some bytes. -/
  | send (count : Nat)
  | sendFailed
  /-- The worker frees the buffer it is through with. -/
  | release

namespace Server

/-- A connection before the first buffer. -/
def start (llbufNum : Int) : Server :=
  { heap := fun _ => none
    llBuffers := none
    globalNumq := 0
    llbufNum := llbufNum
    doExit := false
    callback := .outside
    worker := .top
    accepted := []
    arrivals := []
    removed := []
    crashed := false }

/-- A step on memory that is not there. -/
def crash (server : Server) : Server :=
  { server with crashed := true }

/-- `sighandler` and the end of the worker. -/
def bye (server : Server) : Server :=
  { server with doExit := true, worker := .exited }

/-- Drop the oldest buffer of the list. -/
def dropHead (server : Server) (head : Nat) : Server :=
  match server.heap head with
  | none =>
      server.crash
  | some cell =>
      { server with
        heap := free server.heap head
        llBuffers := cell.next
        removed := server.removed ++ [cell.payload.number] }

/-- `cur->next = rpt`, and the statistics. -/
def link (server : Server) (cur rpt numQueued : Nat) : Server :=
  match setNext server.heap cur (some rpt) with
  | none =>
      server.crash
  | some heap =>
      { server with heap := heap, globalNumq := numQueued }

/-- The critical section of `rtlsdr_callback`, without the record of the arrival. -/
def append (server : Server) (rpt : Nat) : Server :=
  match server.llBuffers with
  | none =>
      { server with llBuffers := some rpt }
  | some head =>
      -- the list holds no more cells than buffers have arrived
      match findLast server.heap server.arrivals.length head 0 with
      | none =>
          server.crash
      | some (cur, numQueued) =>
          if server.llbufNum ≠ 0 ∧ server.llbufNum = (numQueued : Int) - 2 then
            (server.dropHead head).link cur rpt numQueued
          else
            server.link cur rpt numQueued

/-- The critical section of `rtlsdr_callback`. -/
def enqueue (server : Server) (rpt : Nat) : Server :=
  match server.heap rpt with
  | none =>
      server.crash
  | some cell =>
      { server.append rpt with
        callback := .outside
        arrivals := server.arrivals ++ [cell.payload.data.bytes] }

/-- The start of the loop over one buffer; `bytesleft` is an `int`. -/
def fetch (server : Server) (curelem : Nat) : Server :=
  match server.heap curelem with
  | none =>
      server.crash
  | some cell =>
      { server with
        worker :=
          .sending curelem ((cell.payload.data.bytes.length : Int).bmod (2 ^ 32))
            0 0 }

/-- `if(bytessent == SOCKET_ERROR || do_exit)`. -/
def afterSend
    (server : Server)
    (curelem : Nat)
    (bytesleft index bytessent : Int) : Server :=
  if bytessent = -1 ∨ server.doExit then
    server.bye
  else
    { server with worker := .sending curelem bytesleft index bytessent }

/-- `send` of a part of the buffer. -/
def send
    (server : Server)
    (curelem : Nat)
    (bytesleft index : Int)
    (count : Nat) : Server :=
  match server.heap curelem with
  | none =>
      server.crash
  | some cell =>
      if 0 ≤ index ∧ index + bytesleft ≤ cell.payload.data.bytes.length then
        afterSend
          { server with
            accepted :=
              server.accepted ++
                (cell.payload.data.bytes.drop index.toNat).take count }
          curelem (bytesleft - count) (index + count) count
      else
        server.crash

/-- `curelem = curelem->next`, and the frees; a buffer of negative length was not sent. -/
def release (server : Server) (curelem : Nat) (bytesleft : Int) : Server :=
  match server.heap curelem with
  | none =>
      server.crash
  | some cell =>
      { server with
        heap := free server.heap curelem
        worker := .taking cell.next
        removed :=
          if bytesleft < 0 then
            server.removed ++ [cell.payload.number]
          else
            server.removed }

/-- A pass of the loop over one buffer, with what `select` and `send` bring. -/
def sendPass
    (server : Server)
    (outcome : Option (Option Nat)) : Option Server :=
  match server.worker with
  | .sending curelem bytesleft index bytessent =>
      if 0 < bytesleft then
        match outcome with
        | none =>
            some (server.afterSend curelem bytesleft index bytessent)
        | some none =>
            some (server.afterSend curelem (bytesleft - -1) (index + -1) (-1))
        | some (some count) =>
            if (count : Int) ≤ bytesleft then
              some (server.send curelem bytesleft index count)
            else
              none
      else
        none
  | _ =>
      none

/-- One step of one of the threads. -/
def step (server : Server) : Action → Option Server
  | .copy rpt buf =>
      match server.callback with
      | .outside =>
          if server.doExit = false ∧ server.heap rpt = none then
            some
              { server with
                heap :=
                  Function.update server.heap rpt
                    (some ⟨⟨buf, server.arrivals.length⟩, none⟩)
                callback := .filled rpt }
          else
            none
      | .filled _ =>
          none
  | .enqueue =>
      match server.callback with
      | .outside =>
          none
      | .filled rpt =>
          some (server.enqueue rpt)
  | .requestExit =>
      some { server with doExit := true }
  | .loop =>
      match server.worker with
      | .top =>
          if server.doExit then
            some { server with worker := .exited }
          else
            some { server with worker := .waiting }
      | _ =>
          none
  | .condTimeout =>
      match server.worker with
      | .waiting =>
          some server.bye
      | _ =>
          none
  | .wake =>
      match server.worker with
      | .waiting =>
          some
            { server with
              worker := .taking server.llBuffers
              llBuffers := none }
      | _ =>
          none
  | .fetch =>
      match server.worker with
      | .taking none =>
          some { server with worker := .top }
      | .taking (some curelem) =>
          some (server.fetch curelem)
      | _ =>
          none
  | .selectTimeout =>
      server.sendPass none
  | .send count =>
      server.sendPass (some (some count))
  | .sendFailed =>
      server.sendPass (some none)
  | .release =>
      match server.worker with
      | .sending curelem bytesleft _ _ =>
          if bytesleft ≤ 0 then
            some (server.release curelem bytesleft)
          else
            none
      | _ =>
          none

end Server

end LibRtlSdr.RtlTcp
