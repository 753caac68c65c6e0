import LibRtlSdr.RtlFmThreads

namespace LibRtlSdr.RtlFm

/-!
# Runs of the threads of `rtl_fm`

Every step of a thread is at most one step of each buffer, so the accounts of both
buffers hold in every run.  As long as no block and no result is overwritten unread, the
file is what the blocks give one after the other; and whether the threads can end when
`main` asks them to is decided by where they are when they are signalled.
-/

open PartialRun (CanReach run)
open SignalledSlot (Slot Accounted)

namespace Threads

variable {D Block Result : Type} {work : Work D Block Result}

/-! ## Accounts -/

/-- A buffer is left alone, or makes one step. -/
def SlotMoves {V : Type} (s next : Slot V) : Prop :=
  next = s ∨ ∃ action, SignalledSlot.step s action = some next

theorem SlotMoves.accounted
    {V : Type}
    {s next : Slot V}
    (moves : SlotMoves s next)
    (accounted : Accounted s) :
    Accounted next := by
  rcases moves with rfl | ⟨action, taken⟩
  · exact accounted
  · exact accounted.step taken

theorem SlotMoves.kept
    {V : Type}
    {s next : Slot V}
    (moves : SlotMoves s next)
    (kept : SignalledSlot.Kept next) :
    SignalledSlot.Kept s := by
  rcases moves with rfl | ⟨action, taken⟩
  · exact kept
  · exact kept.of_step taken

/-- A step of a thread moves each buffer at most once. -/
theorem Moves.slots
    {t next : Threads D Block Result}
    {action : ThreadAction Block}
    (moves : Moves work t action next) :
    SlotMoves t.blocks next.blocks ∧ SlotMoves t.results next.results := by
  cases moves with
  | requestExit | ignored | called | dongleLeaves | testDemod | squelch | signalHop
    | testOutput | cancel | mainLeaves =>
      exact ⟨.inl rfl, .inl rfl⟩
  | copyBlock block _ signalled =>
      exact ⟨.inr ⟨.store block, by simp [SignalledSlot.step, signalled]⟩, .inl rfl⟩
  | signalDemod _ due =>
      exact ⟨.inr ⟨.signal, if_pos due⟩, .inl rfl⟩
  | waitDemod _ away =>
      exact ⟨.inr ⟨.wait, if_pos away⟩, .inl rfl⟩
  | demodulate _ woken =>
      exact ⟨.inr ⟨.take, if_pos woken⟩, .inl rfl⟩
  | publish _ _ signalled =>
      exact
        ⟨.inl rfl, .inr ⟨.store (work.result t.d), by simp [SignalledSlot.step, signalled]⟩⟩
  | signalOutput _ due =>
      exact ⟨.inl rfl, .inr ⟨.signal, if_pos due⟩⟩
  | waitOutput _ away =>
      exact ⟨.inl rfl, .inr ⟨.wait, if_pos away⟩⟩
  | write _ woken =>
      exact ⟨.inl rfl, .inr ⟨.take, if_pos woken⟩⟩
  | exitDemod | spuriousDemod =>
      exact ⟨.inr ⟨.nudge, rfl⟩, .inl rfl⟩
  | exitOutput | spuriousOutput =>
      exact ⟨.inl rfl, .inr ⟨.nudge, rfl⟩⟩

/-- The demodulations that have led neither to a result nor to a hop. -/
def underWay : DemodPc → Nat
  | .demodulated | .hopping => 1
  | _ => 0

/-- The accounts of the buffers, of the demodulations and of the file. -/
structure Balanced (t : Threads D Block Result) : Prop where
  blocks : Accounted t.blocks
  results : Accounted t.results
  demodulations :
    t.results.stored.length + t.hops + underWay t.demod =
      t.blocks.taken.length + t.blocks.stale
  file : t.file.length = t.results.taken.length + t.results.stale

theorem balanced_start
    (d : D)
    (o : Result) :
    Balanced (start d o : Threads D Block Result) :=
  ⟨SignalledSlot.accounted_empty, SignalledSlot.accounted_empty, rfl, rfl⟩

theorem Balanced.step
    {t next : Threads D Block Result}
    {action : ThreadAction Block}
    (balanced : Balanced t)
    (taken : step work t action = some next) :
    Balanced next := by
  have moves := moves_of_step taken
  obtain ⟨blocks, results⟩ := moves.slots
  have demodulations := balanced.demodulations
  refine ⟨blocks.accounted balanced.blocks, results.accounted balanced.results, ?_, ?_⟩
  · cases moves with
    | testDemod here =>
        have none : underWay (if t.doExit then .left else .entering) = 0 := by
          cases t.doExit <;> rfl
        rw [here] at demodulations
        rw [none]
        exact demodulations
    | waitDemod here | squelch here | signalOutput here =>
        rw [here] at demodulations
        exact demodulations
    | signalHop here =>
        rw [here] at demodulations
        simp only [underWay] at demodulations ⊢
        omega
    | demodulate here =>
        rw [here] at demodulations
        have taking := SignalledSlot.length_take t.blocks
        simp only [underWay] at demodulations ⊢
        omega
    | publish here =>
        rw [here] at demodulations
        simp only [underWay, Slot.store, List.length_append, List.length_singleton]
          at demodulations ⊢
        omega
    | _ => exact demodulations
  · cases moves with
    | write =>
        have taking := SignalledSlot.length_take t.results
        have file := balanced.file
        simp only [List.length_append, List.length_singleton]
        omega
    | _ => exact balanced.file

/--
In every run: the blocks that are demodulated for the first time are in the order in
which they came, and a block is demodulated again only at the cost of one that was
overwritten, or of a wake-up from elsewhere.  So never more is written than came.
-/
theorem threads_account
    {d : D}
    {o : Result}
    {actions : List (ThreadAction Block)}
    {t : Threads D Block Result}
    (reached : run (step work) (start d o) actions = some t) :
    (t.blocks.taken ++ t.blocks.unread.toList).Sublist t.blocks.stored ∧
      t.blocks.taken.length + t.blocks.lost.length + t.blocks.unread.toList.length =
        t.blocks.stored.length ∧
      t.blocks.stale ≤ t.blocks.lost.length + t.blocks.nudges ∧
      t.file.length + t.hops ≤
        t.blocks.stored.length + t.blocks.nudges + t.results.nudges := by
  have balanced := PartialRun.invariant Balanced Balanced.step (balanced_start d o) reached
  have takes := balanced.blocks.takes_le
  have writes := balanced.results.takes_le
  have demodulations := balanced.demodulations
  have file := balanced.file
  exact ⟨balanced.blocks.order, balanced.blocks.values, balanced.blocks.stale, by omega⟩

/-- The second block overwrites the first one, and is demodulated twice. -/
def overwriting : List (ThreadAction Nat) :=
  [.testDemod, .waitDemod, .callback 1, .copyBlock, .signalDemod, .callback 2, .copyBlock,
    .demodulate, .publish, .signalOutput, .testDemod, .waitDemod, .signalDemod, .demodulate]

theorem threads_account_overwriting :
    ∃ t : Threads (Nat × Nat) Nat Nat,
      run (step handingOn) (start (0, 0) 0) overwriting = some t ∧
        (t.blocks.taken ++ t.blocks.unread.toList).Sublist t.blocks.stored ∧
        t.blocks.taken.length + t.blocks.lost.length + t.blocks.unread.toList.length =
          t.blocks.stored.length ∧
        t.blocks.stale ≤ t.blocks.lost.length + t.blocks.nudges ∧
        t.file.length + t.hops ≤
          t.blocks.stored.length + t.blocks.nudges + t.results.nudges :=
  ⟨_, rfl, @threads_account _ _ _ handingOn (0, 0) 0 overwriting _ rfl⟩

/-! ## One block after the other -/

end Threads

section Sequence

variable {D Block Result : Type}

/-- A block, received, demodulated and published. -/
def Work.workBlock (work : Work D Block Result) (d : D) (block : Block) : List Result × D :=
  let done := work.fullDemod (work.receive d block)
  if work.squelched done then ([], work.hairTrigger done) else ([work.result done], done)

/-- One block after the other. -/
def Work.workBlocks (work : Work D Block Result) : D → List Block → List Result × D
  | d, [] =>
      ([], d)
  | d, block :: rest =>
      let first := work.workBlock d block
      let later := work.workBlocks first.2 rest
      (first.1 ++ later.1, later.2)

/-- One block more. -/
theorem Work.workBlocks_concat
    (work : Work D Block Result)
    (d : D)
    (earlier : List Block)
    (last : Block) :
    work.workBlocks d (earlier ++ [last]) =
      ((work.workBlocks d earlier).1 ++ (work.workBlock (work.workBlocks d earlier).2 last).1,
        (work.workBlock (work.workBlocks d earlier).2 last).2) := by
  induction earlier generalizing d with
  | nil =>
      simp [workBlocks]
  | cons block rest inductionHypothesis =>
      rw [List.cons_append, workBlocks, workBlocks, inductionHypothesis]
      simp only [List.append_assoc]

/-- What the first blocks give comes first. -/
theorem Work.workBlocks_prefix
    (work : Work D Block Result)
    (d : D)
    (first second : List Block) :
    (work.workBlocks d first).1 <+: (work.workBlocks d (first ++ second)).1 := by
  induction second using List.reverseRecOn with
  | nil =>
      exact ⟨[], by rw [List.append_nil, List.append_nil]⟩
  | append_singleton earlier last inductionHypothesis =>
      rw [← List.append_assoc, work.workBlocks_concat]
      exact inductionHypothesis.trans (List.prefix_append _ _)

/-- The state, with the block that has been received and not demodulated yet. -/
def Work.received (work : Work D Block Result) (d : D) (unread : Option Block) : D :=
  match unread with
  | none => d
  | some block => work.receive d block

theorem Work.squelched_received
    (work : Work D Block Result)
    (d : D)
    (unread : Option Block) :
    work.squelched (work.received d unread) = work.squelched d := by
  cases unread with
  | none => rfl
  | some block => exact work.squelched_receive d block

theorem Work.result_received
    (work : Work D Block Result)
    (d : D)
    (unread : Option Block) :
    work.result (work.received d unread) = work.result d := by
  cases unread with
  | none => rfl
  | some block => exact work.result_receive d block

theorem Work.hairTrigger_received
    (work : Work D Block Result)
    (d : D)
    (unread : Option Block) :
    work.hairTrigger (work.received d unread) = work.received (work.hairTrigger d) unread := by
  cases unread with
  | none => rfl
  | some block => exact work.hairTrigger_receive d block

end Sequence

namespace Threads

variable {D Block Result : Type} {work : Work D Block Result}

/-- The blocks that were taken have done what they do one after the other. -/
structure Sequential (work : Work D Block Result) (d : D) (t : Threads D Block Result) :
    Prop where
  /-- Behind a demodulation, before its result is published. -/
  underWay :
    t.demod = .demodulated →
      ∃ earlier last,
        t.blocks.taken = earlier ++ [last] ∧
          (work.workBlocks d earlier).1 = t.results.stored ∧
          t.d =
            work.received
              (work.fullDemod (work.receive (work.workBlocks d earlier).2 last))
              t.blocks.unread
  published :
    t.demod ≠ .demodulated →
      (work.workBlocks d t.blocks.taken).1 = t.results.stored ∧
        t.d = work.received (work.workBlocks d t.blocks.taken).2 t.blocks.unread

theorem sequential_start
    (d : D)
    (o : Result) :
    Sequential work d (start d o) where
  underWay := fun pc => by cases pc
  published := fun _ => ⟨rfl, rfl⟩

/-- Steps that concern neither the demodulator's state nor its results. -/
theorem Sequential.congr
    {d : D}
    {t next : Threads D Block Result}
    (sequential : Sequential work d t)
    (sameD : next.d = t.d)
    (sameTaken : next.blocks.taken = t.blocks.taken)
    (sameUnread : next.blocks.unread = t.blocks.unread)
    (sameStored : next.results.stored = t.results.stored)
    (samePc : next.demod = .demodulated ↔ t.demod = .demodulated) :
    Sequential work d next := by
  constructor
  · intro pc
    rw [sameD, sameTaken, sameUnread, sameStored]
    exact sequential.underWay (samePc.mp pc)
  · intro pc
    rw [sameD, sameTaken, sameUnread, sameStored]
    exact sequential.published (fun before => pc (samePc.mpr before))

/-- As long as no block is overwritten unread, the demodulator works in sequence. -/
theorem Sequential.step
    {d : D}
    {t next : Threads D Block Result}
    {action : ThreadAction Block}
    (balanced : Balanced t)
    (sequential : Sequential work d t)
    (taken : step work t action = some next)
    (kept : SignalledSlot.Kept next.blocks) :
    Sequential work d next := by
  have after := (balanced.step taken).blocks
  cases moves_of_step taken with
  | copyBlock block =>
      have read := kept.unread_of_store
      constructor
      · intro pc
        obtain ⟨earlier, last, split, results, state⟩ := sequential.underWay pc
        rw [read] at state
        exact ⟨earlier, last, split, results, congrArg (work.receive · block) state⟩
      · intro pc
        obtain ⟨results, state⟩ := sequential.published pc
        rw [read] at state
        exact ⟨results, congrArg (work.receive · block) state⟩
  | demodulate here =>
      obtain ⟨block, unread⟩ := after.unread_of_take kept
      obtain ⟨results, state⟩ := sequential.published (by rw [here]; decide)
      rw [unread] at state
      refine ⟨fun _ => ⟨t.blocks.taken, block, ?_, results, ?_⟩, fun pc => absurd rfl pc⟩
      · simp [Slot.take, unread]
      · exact congrArg work.fullDemod state
  | squelch here squelched =>
      obtain ⟨earlier, last, split, results, state⟩ := sequential.underWay here
      rw [state, work.squelched_received] at squelched
      have block :
          work.workBlock (work.workBlocks d earlier).2 last =
            ([], work.hairTrigger
              (work.fullDemod (work.receive (work.workBlocks d earlier).2 last))) :=
        if_pos squelched
      refine ⟨fun pc => (by cases pc), fun _ => ?_⟩
      simp only
      rw [split, work.workBlocks_concat, block, List.append_nil, state,
        work.hairTrigger_received]
      exact ⟨results, rfl⟩
  | publish here loud =>
      obtain ⟨earlier, last, split, results, state⟩ := sequential.underWay here
      rw [state, work.squelched_received] at loud
      have block :
          work.workBlock (work.workBlocks d earlier).2 last =
            ([work.result (work.fullDemod (work.receive (work.workBlocks d earlier).2 last))],
              work.fullDemod (work.receive (work.workBlocks d earlier).2 last)) :=
        if_neg (by rw [loud]; decide)
      refine ⟨fun pc => (by cases pc), fun _ => ?_⟩
      simp only
      rw [split, work.workBlocks_concat, block, state, work.result_received, results]
      exact ⟨rfl, rfl⟩
  | testDemod here =>
      refine sequential.congr rfl rfl rfl rfl ?_
      cases t.doExit <;> simp [here]
  | waitDemod here | signalHop here | signalOutput here =>
      refine sequential.congr rfl rfl rfl rfl ?_
      simp [here]
  | _ =>
      exact sequential.congr rfl rfl rfl rfl Iff.rfl

/-- The file has the results that were taken, and `o` holds the one that was not. -/
structure Recorded (t : Threads D Block Result) : Prop where
  file : t.file = t.results.taken
  o : ∀ result, t.results.unread = some result → t.o = result

theorem Recorded.step
    {t next : Threads D Block Result}
    {action : ThreadAction Block}
    (balanced : Balanced t)
    (recorded : Recorded t)
    (taken : step work t action = some next)
    (kept : SignalledSlot.Kept next.results) :
    Recorded next := by
  have after := (balanced.step taken).results
  cases moves_of_step taken with
  | publish =>
      refine ⟨recorded.file, ?_⟩
      rintro result unread
      exact Option.some.inj unread
  | write =>
      obtain ⟨result, unread⟩ := after.unread_of_take kept
      refine ⟨?_, fun result none => by cases none⟩
      simp only
      rw [recorded.file, recorded.o result unread, Slot.take, unread]
      rfl
  | _ =>
      exact ⟨recorded.file, recorded.o⟩

/-- What the threads have done, as long as both buffers keep up. -/
structure KeepsUp (work : Work D Block Result) (d : D) (t : Threads D Block Result) :
    Prop where
  balanced : Balanced t
  sequential : SignalledSlot.Kept t.blocks → Sequential work d t
  recorded : SignalledSlot.Kept t.results → Recorded t

theorem KeepsUp.step
    {d : D}
    {t next : Threads D Block Result}
    {action : ThreadAction Block}
    (keepsUp : KeepsUp work d t)
    (taken : Threads.step work t action = some next) :
    KeepsUp work d next := by
  obtain ⟨blocks, results⟩ := (moves_of_step taken).slots
  refine ⟨keepsUp.balanced.step taken, ?_, ?_⟩
  · intro kept
    exact (keepsUp.sequential (blocks.kept kept)).step keepsUp.balanced taken kept
  · intro kept
    exact (keepsUp.recorded (results.kept kept)).step keepsUp.balanced taken kept

/--
In every run in which no block and no result is overwritten unread, and nothing else
wakes the threads: the file is a first part of what the blocks give one after the other,
and all of it whenever the threads have caught up.
-/
theorem file_of_kept
    {d : D}
    {o : Result}
    {actions : List (ThreadAction Block)}
    {t : Threads D Block Result}
    (reached : run (step work) (start d o) actions = some t)
    (keptBlocks : SignalledSlot.Kept t.blocks)
    (keptResults : SignalledSlot.Kept t.results) :
    t.file <+: (work.workBlocks d t.blocks.stored).1 ∧
      (t.blocks.unread = none → t.results.unread = none → t.demod ≠ .demodulated →
        t.file = (work.workBlocks d t.blocks.stored).1) := by
  have keepsUp : KeepsUp work d t :=
    PartialRun.invariant (KeepsUp work d) KeepsUp.step
      ⟨balanced_start d o, fun _ => sequential_start d o,
        fun _ => ⟨rfl, fun result unread => by cases unread⟩⟩
      reached
  have recorded := keepsUp.recorded keptResults
  have sequential := keepsUp.sequential keptBlocks
  have blocks := (keepsUp.balanced.blocks.exact keptBlocks).1
  have results := (keepsUp.balanced.results.exact keptResults).1
  have published : t.file <+: t.results.stored := by
    rw [recorded.file, ← results]
    exact List.prefix_append _ _
  constructor
  · apply published.trans
    rw [← blocks]
    by_cases underWay : t.demod = .demodulated
    · obtain ⟨earlier, last, split, same, -⟩ := sequential.underWay underWay
      rw [← same, split, List.append_assoc]
      exact work.workBlocks_prefix d earlier _
    · rw [← (sequential.published underWay).1]
      exact work.workBlocks_prefix d _ _
  · intro noBlock noResult settled
    rw [noBlock, Option.toList_none, List.append_nil] at blocks
    rw [noResult, Option.toList_none, List.append_nil] at results
    rw [recorded.file, results, ← blocks]
    exact (sequential.published settled).1.symm

/-- One block, and both threads in their waits again. -/
def keepingUp : List (ThreadAction Nat) :=
  [.testDemod, .waitDemod, .testOutput, .waitOutput, .callback 5, .copyBlock, .signalDemod,
    .demodulate, .publish, .signalOutput, .write, .testDemod, .waitDemod]

theorem file_of_kept_one_block :
    ∃ t : Threads (Nat × Nat) Nat Nat,
      run (step handingOn) (start (0, 0) 0) keepingUp = some t ∧
        t.file <+: (handingOn.workBlocks (0, 0) t.blocks.stored).1 ∧
        (t.blocks.unread = none → t.results.unread = none → t.demod ≠ .demodulated →
          t.file = (handingOn.workBlocks (0, 0) t.blocks.stored).1) :=
  ⟨_, rfl, @file_of_kept _ _ _ handingOn (0, 0) 0 keepingUp _ rfl ⟨rfl, rfl⟩ ⟨rfl, rfl⟩⟩

/-! ## The end -/

/-- The positions of the threads fit what they have done to the buffers. -/
structure Positions (t : Threads D Block Result) : Prop where
  pausing : t.demod = .pausing → t.blocks.waiter ≠ .away
  copied : t.results.signalDue = true ↔ t.demod = .copied
  outputPausing : t.output = .pausing → t.results.waiter ≠ .away
  exiting : t.main ≠ .polling → t.doExit = true
  dongleJoined : t.main ≠ .polling → t.main ≠ .joiningDongle → t.dongle = .left
  demodJoined : t.main = .joiningOutput → t.demod = .left

theorem signalled_ne_away
    {waiter : SignalledSlot.Waiter}
    (pausing : waiter ≠ .away) :
    waiter.signalled ≠ .away := by
  cases waiter <;> simp_all [SignalledSlot.Waiter.signalled]

theorem Positions.step
    {t next : Threads D Block Result}
    {action : ThreadAction Block}
    (positions : Positions t)
    (taken : step work t action = some next) :
    Positions next := by
  obtain ⟨pausing, copied, outputPausing, exiting, dongleJoined, demodJoined⟩ := positions
  -- a step changes one position, and is possible in few of the others
  cases moves_of_step taken
  all_goals
    constructor
  all_goals
    grind [Slot.store, Slot.signal, Slot.wait, Slot.nudge, Slot.take, signalled_ne_away]

theorem positions_start
    (d : D)
    (o : Result) :
    Positions (start d o : Threads D Block Result) := by
  constructor <;> simp [start, Slot.empty]

/-! ### The demodulator -/

/-- The demodulator has left. -/
def DemodLeft (t : Threads D Block Result) : Prop :=
  t.demod = .left

/-- It has missed the last signal. -/
structure DemodStuck (t : Threads D Block Result) : Prop where
  dongle : t.dongle = .left
  main : t.main = .joiningDemod
  demod : t.demod = .entering ∨ (t.demod = .pausing ∧ t.blocks.waiter = .waiting)

theorem DemodStuck.step
    {t next : Threads D Block Result}
    {action : ThreadAction Block}
    (stuck : DemodStuck t)
    (other : action ≠ .spuriousDemod)
    (taken : step work t action = some next) :
    DemodStuck next := by
  obtain ⟨dongle, main, demod⟩ := stuck
  cases moves_of_step taken
  all_goals
    constructor
  all_goals
    grind [Slot.wait]

/-- Another thread that has to be signalled, and is not before its wait. -/
structure DemodReady (t : Threads D Block Result) : Prop where
  exiting : t.doExit = true
  signalled : t.results.signalDue = true ↔ t.demod = .copied
  pausing : t.demod = .pausing → t.blocks.waiter = .woken

section Demod

variable {t : Threads D Block Result}

theorem testing_ends
    (exiting : t.doExit = true)
    (testing : t.demod = .testing) :
    CanReach (step work) (· ≠ .spuriousDemod) DemodLeft t := by
  have taken : step work t .testDemod = some { t with demod := .left } := by
    simp [step, testDemod, testing, exiting]
  exact (CanReach.here (show DemodLeft { t with demod := .left } from rfl)).of_step
    (by simp) taken

/-- Behind a demodulation the thread goes on to its test. -/
theorem demodulated_ends
    (exiting : t.doExit = true)
    (signalled : t.results.signalDue = false)
    (demodulated : t.demod = .demodulated) :
    CanReach (step work) (· ≠ .spuriousDemod) DemodLeft t := by
  cases squelched : work.squelched t.d with
  | true =>
      have silenced :
          step work t .publish =
            some { t with demod := .hopping, d := work.hairTrigger t.d } := by
        simp [step, publish, demodulated, squelched]
      refine CanReach.of_step ?_ (by simp) silenced
      exact CanReach.of_step (testing_ends (by exact exiting) rfl) (by simp)
        (show step work _ .signalHop = some _ from rfl)
  | false =>
      have published :
          step work t .publish =
            some { t with
              demod := .copied
              o := work.result t.d
              results := t.results.store (work.result t.d) } := by
        simp [step, publish, demodulated, squelched, SignalledSlot.step, signalled]
      refine CanReach.of_step ?_ (by simp) published
      exact CanReach.of_step (testing_ends (by exact exiting) rfl) (by simp)
        (show step work _ .signalOutput = some _ from rfl)

/-- Wherever the thread is, but before its wait, it can leave. -/
theorem DemodReady.ends
    (ready : DemodReady t)
    (ahead : t.demod ≠ .entering) :
    CanReach (step work) (· ≠ .spuriousDemod) DemodLeft t := by
  have signalled : t.demod ≠ .copied → t.results.signalDue = false := by
    intro elsewhere
    have due := ready.signalled
    cases known : t.results.signalDue with
    | false => rfl
    | true => exact absurd (due.mp known) elsewhere
  cases here : t.demod with
  | testing =>
      exact testing_ends ready.exiting here
  | entering =>
      exact absurd here ahead
  | pausing =>
      have woken := ready.pausing here
      have taken :
          step work t .demodulate =
            some { t with
              demod := .demodulated
              d := work.fullDemod t.d
              blocks := t.blocks.take } := by
        simp [step, demodulate, here, SignalledSlot.step, woken]
      refine CanReach.of_step (demodulated_ends ?_ ?_ rfl) (by simp) taken
      · exact ready.exiting
      · exact signalled (by rw [here]; decide)
  | demodulated =>
      exact demodulated_ends ready.exiting (signalled (by rw [here]; decide)) here
  | copied =>
      have due := ready.signalled.mpr here
      have taken :
          step work t .signalOutput =
            some { t with demod := .testing, results := t.results.signal } := by
        simp [step, signalOutput, here, SignalledSlot.step, due]
      exact CanReach.of_step (testing_ends (by exact ready.exiting) rfl) (by simp) taken
  | hopping =>
      have taken :
          step work t .signalHop = some { t with demod := .testing, hops := t.hops + 1 } := by
        simp [step, signalHop, here]
      exact CanReach.of_step (testing_ends (by exact ready.exiting) rfl) (by simp) taken
  | left =>
      exact CanReach.here here

end Demod

/-! ### The output -/

/-- The output has left. -/
def OutputLeft (t : Threads D Block Result) : Prop :=
  t.output = .left

/-- It has missed the last signal. -/
structure OutputStuck (t : Threads D Block Result) : Prop where
  demod : t.demod = .left
  main : t.main = .joiningOutput
  output : t.output = .entering ∨ (t.output = .pausing ∧ t.results.waiter = .waiting)

theorem OutputStuck.step
    {t next : Threads D Block Result}
    {action : ThreadAction Block}
    (stuck : OutputStuck t)
    (other : action ≠ .spuriousOutput)
    (taken : step work t action = some next) :
    OutputStuck next := by
  obtain ⟨demod, main, output⟩ := stuck
  cases moves_of_step taken
  all_goals
    constructor
  all_goals
    grind [Slot.wait]

theorem testingOutput_ends
    {t : Threads D Block Result}
    (exiting : t.doExit = true)
    (testing : t.output = .testing) :
    CanReach (step work) (· ≠ .spuriousOutput) OutputLeft t := by
  have taken : step work t .testOutput = some { t with output := .left } := by
    simp [step, testOutput, testing, exiting]
  exact (CanReach.here (show OutputLeft { t with output := .left } from rfl)).of_step
    (by simp) taken

/-- Wherever the thread is, but before its wait, it can leave. -/
theorem output_ends
    {t : Threads D Block Result}
    (exiting : t.doExit = true)
    (woken : t.output = .pausing → t.results.waiter = .woken)
    (ahead : t.output ≠ .entering) :
    CanReach (step work) (· ≠ .spuriousOutput) OutputLeft t := by
  cases here : t.output with
  | testing =>
      exact testingOutput_ends exiting here
  | entering =>
      exact absurd here ahead
  | pausing =>
      have taken :
          step work t .write =
            some { t with
              output := .testing
              results := t.results.take
              file := t.file ++ [t.o] } := by
        simp [step, write, here, SignalledSlot.step, woken here]
      exact CanReach.of_step (testingOutput_ends (by exact exiting) rfl) (by simp) taken
  | left =>
      exact CanReach.here here

theorem signalled_woken
    {waiter : SignalledSlot.Waiter}
    (pausing : waiter ≠ .away) :
    waiter.signalled = .woken := by
  cases waiter with
  | away => exact absurd rfl pausing
  | waiting => rfl
  | woken => rfl

/--
In every run, when `main` is about to signal a thread that it wants to join: without a
spurious wake-up the thread can leave if and only if it is not between its test of
`do_exit` and its wait.
-/
theorem exit_iff
    {d : D}
    {o : Result}
    {actions : List (ThreadAction Block)}
    {t next : Threads D Block Result}
    (reached : run (step work) (start d o) actions = some t)
    (signalled : step work t .main = some next) :
    (t.main = .joiningDongle →
        (CanReach (step work) (· ≠ .spuriousDemod) DemodLeft next ↔
          t.demod ≠ .entering)) ∧
      (t.main = .joiningDemod →
        (CanReach (step work) (· ≠ .spuriousOutput) OutputLeft next ↔
          t.output ≠ .entering)) := by
  have positions :=
    PartialRun.invariant Positions Positions.step (positions_start d o) reached
  cases moves_of_step signalled with
  | cancel main | mainLeaves main =>
      rw [main]
      exact ⟨fun here => (by cases here), fun here => (by cases here)⟩
  | exitDemod main dongle =>
      rw [main]
      refine ⟨fun _ => ⟨?_, ?_⟩, fun here => (by cases here)⟩
      · intro ends entering
        apply PartialRun.not_canReach DemodStuck.step _ _ ends
        · rintro state ⟨-, -, waits⟩ left
          rw [DemodLeft] at left
          simp [left] at waits
        · exact ⟨dongle, rfl, .inl entering⟩
      · intro ahead
        refine DemodReady.ends ⟨?_, positions.copied, ?_⟩ ahead
        · exact positions.exiting (by rw [main]; decide)
        · exact fun pausing => signalled_woken (positions.pausing pausing)
  | exitOutput main demod =>
      rw [main]
      refine ⟨fun here => (by cases here), fun _ => ⟨?_, ?_⟩⟩
      · intro ends entering
        apply PartialRun.not_canReach OutputStuck.step _ _ ends
        · rintro state ⟨-, -, waits⟩ left
          rw [OutputLeft] at left
          simp [left] at waits
        · exact ⟨demod, rfl, .inl entering⟩
      · intro ahead
        refine output_ends ?_ ?_ ahead
        · exact positions.exiting (by rw [main]; decide)
        · exact fun pausing => signalled_woken (positions.outputPausing pausing)

/-- The demodulator has tested `do_exit`, and does not wait yet. -/
def endingBetween : List (ThreadAction Nat) :=
  [.testDemod, .requestExit, .main, .dongleLeaves]

theorem exit_iff_between :
    ∃ t next : Threads (Nat × Nat) Nat Nat,
      run (step handingOn) (start (0, 0) 0) endingBetween = some t ∧
        step handingOn t .main = some next ∧
        (t.main = .joiningDongle →
          (CanReach (step handingOn) (· ≠ .spuriousDemod) DemodLeft next ↔
            t.demod ≠ .entering)) ∧
        (t.main = .joiningDemod →
          (CanReach (step handingOn) (· ≠ .spuriousOutput) OutputLeft next ↔
            t.output ≠ .entering)) :=
  ⟨_, _, rfl, rfl, @exit_iff _ _ _ handingOn (0, 0) 0 endingBetween _ _ rfl rfl⟩

end Threads

end LibRtlSdr.RtlFm
