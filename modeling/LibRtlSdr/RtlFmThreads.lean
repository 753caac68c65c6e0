import LibRtlSdr.SeamlessStages
import LibRtlSdr.SignalledSlot

namespace LibRtlSdr.RtlFm

/-!
# The threads of `rtl_fm`

The thread of the dongle calls `rtlsdr_callback` with each block, the demodulator's
thread runs `full_demod` on it, and the output thread writes the result.  Between two
threads there is one buffer, behind a lock, and a condition variable that is signalled
after the lock was given back; nobody looks whether the buffer has been read.  What
happens under a lock is one step here, and everything between interleaves.
-/

open PartialRun (run)
open SignalledSlot (Slot Waiter)

/--
What `rtlsdr_callback` and `demod_thread_fn` do to `struct demod_state`.  A block is
copied to `lowpassed`, which neither the squelch nor the result depends on.
-/
structure Work (D Block Result : Type) where
  /-- The samples of a block are copied to `lowpassed`. -/
  receive : D → Block → D
  fullDemod : D → D
  /-- `d->squelch_level && d->squelch_hits > d->conseq_squelch` -/
  squelched : D → Bool
  /-- `d->squelch_hits = d->conseq_squelch + 1` -/
  hairTrigger : D → D
  /-- The first `result_len` values of `result`. -/
  result : D → Result
  squelched_receive : ∀ d block, squelched (receive d block) = squelched d
  hairTrigger_receive :
    ∀ d block, hairTrigger (receive d block) = receive (hairTrigger d) block
  result_receive : ∀ d block, result (receive d block) = result d

/-- A demodulator that hands the blocks on as they are. -/
def handingOn : Work (Nat × Nat) Nat Nat where
  receive := fun d block => (block, d.2)
  fullDemod := fun d => (d.1, d.1)
  squelched := fun _ => false
  hairTrigger := fun d => d
  result := fun d => d.2
  squelched_receive := fun _ _ => rfl
  hairTrigger_receive := fun _ _ => rfl
  result_receive := fun _ _ => rfl

/-- Where the thread of the dongle is. -/
inductive DonglePc (Block : Type) where
  /-- In `rtlsdr_read_async`, outside of the callback. -/
  | reading
  /-- In the callback, behind the test of `do_exit`. -/
  | called (block : Block)
  /-- Behind the copy, before the signal. -/
  | copied
  | left

/-- Where `demod_thread_fn` is. -/
inductive DemodPc where
  /-- At the test of `do_exit`. -/
  | testing
  /-- Behind the test, before it waits. -/
  | entering
  /-- In `safe_cond_wait`. -/
  | pausing
  /-- Behind `full_demod`. -/
  | demodulated
  /-- Behind the copy of the result, before the signal. -/
  | copied
  /-- Before the signal to the controller. -/
  | hopping
  | left
deriving DecidableEq

/-- Where `output_thread_fn` is. -/
inductive OutputPc where
  | testing
  | entering
  | pausing
  | left
deriving DecidableEq

/-- Where `main` is, once the threads are created. -/
inductive MainPc where
  | polling
  /-- Behind `rtlsdr_cancel_async`, joining the dongle's thread. -/
  | joiningDongle
  | joiningDemod
  | joiningOutput
  | left
deriving DecidableEq

/-- What the threads share, and where they are. -/
structure Threads (D Block Result : Type) where
  doExit : Bool
  dongle : DonglePc Block
  demod : DemodPc
  output : OutputPc
  main : MainPc
  /-- `struct demod_state` -/
  d : D
  /-- The account of `lowpassed` and `d->ready`. -/
  blocks : Slot Block
  /-- The account of `o->result` and `o->ready`; it holds what is in the buffer. -/
  results : Slot Result
  /-- What is in `o->result`. -/
  o : Result
  /-- The results, as they were written to the file. -/
  file : List Result
  /-- How often the controller was signalled. -/
  hops : Nat

/-- The steps of the threads. -/
inductive ThreadAction (Block : Type) where
  /-- `sighandler` -/
  | requestExit
  /-- The driver calls `rtlsdr_callback`. -/
  | callback (block : Block)
  /-- `lowpassed` and `lp_len` are written, under `d->rw`. -/
  | copyBlock
  | signalDemod
  /-- `rtlsdr_read_async` returns. -/
  | dongleLeaves
  | testDemod
  | waitDemod
  /-- The wait returns, and `full_demod` runs under `d->rw`. -/
  | demodulate
  /-- The squelch is tested, and the result copied under `o->rw`. -/
  | publish
  | signalOutput
  | signalHop
  | testOutput
  | waitOutput
  /-- The wait returns, and the result is written under `o->rw`. -/
  | write
  /-- `main` goes on. -/
  | main
  /-- A wait returns without a signal. -/
  | spuriousDemod
  | spuriousOutput
deriving DecidableEq

namespace Threads

variable {D Block Result : Type}

/-! ## Source -/

/-- The threads, just created. -/
def start (d : D) (o : Result) : Threads D Block Result where
  doExit := false
  dongle := .reading
  demod := .testing
  output := .testing
  main := .polling
  d := d
  blocks := .empty
  results := .empty
  o := o
  file := []
  hops := 0

section Dongle

variable (work : Work D Block Result) (t : Threads D Block Result)

/-- `rtlsdr_callback` up to the lock; it does nothing when `do_exit` is set. -/
def callback (block : Block) : Option (Threads D Block Result) :=
  match t.dongle with
  | .reading => if t.doExit then some t else some { t with dongle := .called block }
  | _ => none

/-- `memcpy(d->lowpassed, s->buf16, 2*len)`, under `d->rw`. -/
def copyBlock : Option (Threads D Block Result) :=
  match t.dongle with
  | .called block =>
      (SignalledSlot.step t.blocks (.store block)).map (fun blocks =>
        { t with dongle := .copied, d := work.receive t.d block, blocks := blocks })
  | _ => none

/-- `safe_cond_signal(&d->ready, &d->ready_m)`. -/
def signalDemod : Option (Threads D Block Result) :=
  match t.dongle with
  | .copied =>
      (SignalledSlot.step t.blocks .signal).map (fun blocks =>
        { t with dongle := .reading, blocks := blocks })
  | _ => none

/-- `rtlsdr_read_async` returns to `dongle_thread_fn`. -/
def dongleLeaves : Option (Threads D Block Result) :=
  match t.dongle with
  | .reading => some { t with dongle := .left }
  | _ => none

end Dongle

section Demod

variable (work : Work D Block Result) (t : Threads D Block Result)

/-- `while (!do_exit)` in `demod_thread_fn`. -/
def testDemod : Option (Threads D Block Result) :=
  match t.demod with
  | .testing => some { t with demod := if t.doExit then .left else .entering }
  | _ => none

/-- `safe_cond_wait(&d->ready, &d->ready_m)` begins. -/
def waitDemod : Option (Threads D Block Result) :=
  match t.demod with
  | .entering =>
      (SignalledSlot.step t.blocks .wait).map (fun blocks =>
        { t with demod := .pausing, blocks := blocks })
  | _ => none

/-- The wait returns; `full_demod(d)`, under `d->rw`. -/
def demodulate : Option (Threads D Block Result) :=
  match t.demod with
  | .pausing =>
      (SignalledSlot.step t.blocks .take).map (fun blocks =>
        { t with demod := .demodulated, d := work.fullDemod t.d, blocks := blocks })
  | _ => none

/-- The test of the squelch, and the copy to `o->result` under `o->rw`. -/
def publish : Option (Threads D Block Result) :=
  match t.demod with
  | .demodulated =>
      if work.squelched t.d then
        some { t with demod := .hopping, d := work.hairTrigger t.d }
      else
        (SignalledSlot.step t.results (.store (work.result t.d))).map (fun results =>
          { t with demod := .copied, o := work.result t.d, results := results })
  | _ => none

/-- `safe_cond_signal(&controller.hop, &controller.hop_m)`. -/
def signalHop : Option (Threads D Block Result) :=
  match t.demod with
  | .hopping => some { t with demod := .testing, hops := t.hops + 1 }
  | _ => none

/-- `safe_cond_signal(&o->ready, &o->ready_m)`. -/
def signalOutput : Option (Threads D Block Result) :=
  match t.demod with
  | .copied =>
      (SignalledSlot.step t.results .signal).map (fun results =>
        { t with demod := .testing, results := results })
  | _ => none

/-- The demodulator's wait returns without a signal. -/
def spuriousDemod : Option (Threads D Block Result) :=
  if t.blocks.waiter = .waiting then
    (SignalledSlot.step t.blocks .nudge).map (fun blocks => { t with blocks := blocks })
  else
    none

end Demod

section Output

variable (t : Threads D Block Result)

/-- `while (!do_exit)` in `output_thread_fn`. -/
def testOutput : Option (Threads D Block Result) :=
  match t.output with
  | .testing => some { t with output := if t.doExit then .left else .entering }
  | _ => none

/-- `safe_cond_wait(&s->ready, &s->ready_m)` begins. -/
def waitOutput : Option (Threads D Block Result) :=
  match t.output with
  | .entering =>
      (SignalledSlot.step t.results .wait).map (fun results =>
        { t with output := .pausing, results := results })
  | _ => none

/-- The wait returns; `fwrite(s->result, 2, s->result_len, s->file)`, under `s->rw`. -/
def write : Option (Threads D Block Result) :=
  match t.output with
  | .pausing =>
      (SignalledSlot.step t.results .take).map (fun results =>
        { t with output := .testing, results := results, file := t.file ++ [t.o] })
  | _ => none

/-- The output's wait returns without a signal. -/
def spuriousOutput : Option (Threads D Block Result) :=
  if t.results.waiter = .waiting then
    (SignalledSlot.step t.results .nudge).map (fun results => { t with results := results })
  else
    none

end Output

/-- The end of `main`: it signals a thread when the one before it has been joined. -/
def mainStep (t : Threads D Block Result) : Option (Threads D Block Result) :=
  match t.main with
  | .polling =>
      if t.doExit then some { t with main := .joiningDongle } else none
  | .joiningDongle =>
      match t.dongle with
      | .left =>
          (SignalledSlot.step t.blocks .nudge).map (fun blocks =>
            { t with main := .joiningDemod, blocks := blocks })
      | _ => none
  | .joiningDemod =>
      if t.demod = .left then
        (SignalledSlot.step t.results .nudge).map (fun results =>
          { t with main := .joiningOutput, results := results })
      else
        none
  | .joiningOutput =>
      if t.output = .left then some { t with main := .left } else none
  | .left => none

/-- A step of any thread. -/
def step (work : Work D Block Result) (t : Threads D Block Result) :
    ThreadAction Block → Option (Threads D Block Result)
  | .requestExit => some { t with doExit := true }
  | .callback block => t.callback block
  | .copyBlock => t.copyBlock work
  | .signalDemod => t.signalDemod
  | .dongleLeaves => t.dongleLeaves
  | .testDemod => t.testDemod
  | .waitDemod => t.waitDemod
  | .demodulate => t.demodulate work
  | .publish => t.publish work
  | .signalHop => t.signalHop
  | .signalOutput => t.signalOutput
  | .testOutput => t.testOutput
  | .waitOutput => t.waitOutput
  | .write => t.write
  | .main => t.mainStep
  | .spuriousDemod => t.spuriousDemod
  | .spuriousOutput => t.spuriousOutput

/-! ## What a step can do -/

/-- The steps, with what each of them requires and leaves. -/
inductive Moves (work : Work D Block Result) (t : Threads D Block Result) :
    ThreadAction Block → Threads D Block Result → Prop where
  | requestExit :
      Moves work t .requestExit { t with doExit := true }
  | ignored (block : Block) :
      t.dongle = .reading → t.doExit = true → Moves work t (.callback block) t
  | called (block : Block) :
      t.dongle = .reading → t.doExit = false →
        Moves work t (.callback block) { t with dongle := .called block }
  | copyBlock (block : Block) :
      t.dongle = .called block → t.blocks.signalDue = false →
        Moves work t .copyBlock
          { t with
            dongle := .copied
            d := work.receive t.d block
            blocks := t.blocks.store block }
  | signalDemod :
      t.dongle = .copied → t.blocks.signalDue = true →
        Moves work t .signalDemod { t with dongle := .reading, blocks := t.blocks.signal }
  | dongleLeaves :
      t.dongle = .reading → Moves work t .dongleLeaves { t with dongle := .left }
  | testDemod :
      t.demod = .testing →
        Moves work t .testDemod { t with demod := if t.doExit then .left else .entering }
  | waitDemod :
      t.demod = .entering → t.blocks.waiter = .away →
        Moves work t .waitDemod { t with demod := .pausing, blocks := t.blocks.wait }
  | demodulate :
      t.demod = .pausing → t.blocks.waiter = .woken →
        Moves work t .demodulate
          { t with
            demod := .demodulated
            d := work.fullDemod t.d
            blocks := t.blocks.take }
  | squelch :
      t.demod = .demodulated → work.squelched t.d = true →
        Moves work t .publish { t with demod := .hopping, d := work.hairTrigger t.d }
  | publish :
      t.demod = .demodulated → work.squelched t.d = false → t.results.signalDue = false →
        Moves work t .publish
          { t with
            demod := .copied
            o := work.result t.d
            results := t.results.store (work.result t.d) }
  | signalHop :
      t.demod = .hopping →
        Moves work t .signalHop { t with demod := .testing, hops := t.hops + 1 }
  | signalOutput :
      t.demod = .copied → t.results.signalDue = true →
        Moves work t .signalOutput { t with demod := .testing, results := t.results.signal }
  | testOutput :
      t.output = .testing →
        Moves work t .testOutput { t with output := if t.doExit then .left else .entering }
  | waitOutput :
      t.output = .entering → t.results.waiter = .away →
        Moves work t .waitOutput { t with output := .pausing, results := t.results.wait }
  | write :
      t.output = .pausing → t.results.waiter = .woken →
        Moves work t .write
          { t with
            output := .testing
            results := t.results.take
            file := t.file ++ [t.o] }
  | cancel :
      t.main = .polling → t.doExit = true →
        Moves work t .main { t with main := .joiningDongle }
  | exitDemod :
      t.main = .joiningDongle → t.dongle = .left →
        Moves work t .main { t with main := .joiningDemod, blocks := t.blocks.nudge }
  | exitOutput :
      t.main = .joiningDemod → t.demod = .left →
        Moves work t .main { t with main := .joiningOutput, results := t.results.nudge }
  | mainLeaves :
      t.main = .joiningOutput → t.output = .left →
        Moves work t .main { t with main := .left }
  | spuriousDemod :
      t.blocks.waiter = .waiting →
        Moves work t .spuriousDemod { t with blocks := t.blocks.nudge }
  | spuriousOutput :
      t.results.waiter = .waiting →
        Moves work t .spuriousOutput { t with results := t.results.nudge }

theorem moves_of_step
    {work : Work D Block Result}
    {t next : Threads D Block Result}
    {action : ThreadAction Block}
    (taken : step work t action = some next) :
    Moves work t action next := by
  cases action with
  | requestExit =>
      cases taken
      exact .requestExit
  | callback block =>
      simp only [step, callback] at taken
      split at taken
      · rename_i reading
        split at taken
        · rename_i exiting
          cases taken
          exact .ignored block reading exiting
        · rename_i going
          cases taken
          exact .called block reading (by simpa using going)
      · cases taken
  | copyBlock =>
      simp only [step, copyBlock, SignalledSlot.step] at taken
      split at taken
      · rename_i block called
        split at taken
        · cases taken
        · rename_i signalled
          cases taken
          exact .copyBlock block called (by simpa using signalled)
      · cases taken
  | signalDemod =>
      simp only [step, signalDemod, SignalledSlot.step] at taken
      split at taken
      · rename_i here
        split at taken
        · rename_i ready
          cases taken
          exact .signalDemod here ready
        · cases taken
      · cases taken
  | dongleLeaves =>
      simp only [step, dongleLeaves] at taken
      split at taken
      · rename_i here
        cases taken
        exact .dongleLeaves here
      · cases taken
  | testDemod =>
      simp only [step, testDemod] at taken
      split at taken
      · rename_i here
        cases taken
        exact .testDemod here
      · cases taken
  | waitDemod =>
      simp only [step, waitDemod, SignalledSlot.step] at taken
      split at taken
      · rename_i here
        split at taken
        · rename_i ready
          cases taken
          exact .waitDemod here ready
        · cases taken
      · cases taken
  | demodulate =>
      simp only [step, demodulate, SignalledSlot.step] at taken
      split at taken
      · rename_i here
        split at taken
        · rename_i ready
          cases taken
          exact .demodulate here ready
        · cases taken
      · cases taken
  | publish =>
      simp only [step, publish, SignalledSlot.step] at taken
      split at taken
      · rename_i here
        split at taken
        · rename_i squelched
          cases taken
          exact .squelch here squelched
        · rename_i loud
          split at taken
          · cases taken
          · rename_i signalled
            cases taken
            exact .publish here (by simpa using loud) (by simpa using signalled)
      · cases taken
  | signalHop =>
      simp only [step, signalHop] at taken
      split at taken
      · rename_i here
        cases taken
        exact .signalHop here
      · cases taken
  | signalOutput =>
      simp only [step, signalOutput, SignalledSlot.step] at taken
      split at taken
      · rename_i here
        split at taken
        · rename_i ready
          cases taken
          exact .signalOutput here ready
        · cases taken
      · cases taken
  | testOutput =>
      simp only [step, testOutput] at taken
      split at taken
      · rename_i here
        cases taken
        exact .testOutput here
      · cases taken
  | waitOutput =>
      simp only [step, waitOutput, SignalledSlot.step] at taken
      split at taken
      · rename_i here
        split at taken
        · rename_i ready
          cases taken
          exact .waitOutput here ready
        · cases taken
      · cases taken
  | write =>
      simp only [step, write, SignalledSlot.step] at taken
      split at taken
      · rename_i here
        split at taken
        · rename_i ready
          cases taken
          exact .write here ready
        · cases taken
      · cases taken
  | main =>
      simp only [step, mainStep, SignalledSlot.step] at taken
      split at taken
      · rename_i here
        split at taken
        · rename_i exiting
          cases taken
          exact .cancel here exiting
        · cases taken
      · rename_i here
        split at taken
        · rename_i ended
          cases taken
          exact .exitDemod here ended
        · cases taken
      · rename_i here
        split at taken
        · rename_i ended
          cases taken
          exact .exitOutput here ended
        · cases taken
      · rename_i here
        split at taken
        · rename_i ended
          cases taken
          exact .mainLeaves here ended
        · cases taken
      · cases taken
  | spuriousDemod =>
      simp only [step, spuriousDemod, SignalledSlot.step] at taken
      split at taken
      · rename_i pausing
        cases taken
        exact .spuriousDemod pausing
      · cases taken
  | spuriousOutput =>
      simp only [step, spuriousOutput, SignalledSlot.step] at taken
      split at taken
      · rename_i pausing
        cases taken
        exact .spuriousOutput pausing
      · cases taken

end Threads

end LibRtlSdr.RtlFm
