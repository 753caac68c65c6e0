import LibRtlSdr.RtlFmAudio
import LibRtlSdr.RtlFmThreadsRuns

namespace LibRtlSdr.RtlFm

/-!
# From the capture to the file

The demodulator's thread runs `full_demod`.  As long as no block and no result is
overwritten unread, the threads write the audio of the capture as one stream, whatever
the order of their steps and wherever the blocks end.
-/

open BoundedBuffer (window)
open PartialRun (run)
open SeamlessStages (feedBlocks)

/-! ## Source -/

/-- `rtlsdr_callback` and `demod_thread_fn`; behind an undefined operation all is undefined. -/
def audioWork (f : FloatParts) (offsetTuning : Bool) :
    Work (Option FullDemod) Block (List Int16) where
  receive := fun d block => d.map (fun d => (d.receive ⟨offsetTuning, 0⟩ block).2)
  fullDemod := fun d => d.bind (FullDemod.fullDemod f)
  squelched := fun d =>
    d.any (fun d => d.squelchLevel ≠ 0 ∧ d.conseqSquelch < d.squelchHits)
  hairTrigger := fun d => d.map (fun d => { d with squelchHits := d.conseqSquelch + 1 })
  result := fun d => (d.map (fun d => window d.result 0 d.resultLen)).getD []
  squelched_receive := fun d _ => by cases d <;> rfl
  hairTrigger_receive := fun d _ => by cases d <;> rfl
  result_receive := fun d _ => by cases d <;> rfl

/-! ## The file -/

/-- Without a squelch the thread does what `audioBlock` does. -/
theorem workBlocks_audio
    (f : FloatParts)
    (offsetTuning : Bool)
    {o : Options}
    (continuous : o.Continuous)
    {machine : DongleState × FullDemod}
    {memory : Memory}
    (recalls : Recalls offsetTuning o machine memory)
    {blocks : List Block}
    (admissible : ∀ block ∈ blocks, Admissible o block)
    {done : List Int16 × (DongleState × FullDemod)}
    (audio : feedBlocks (audioBlock f) machine blocks = some done) :
    ((audioWork f offsetTuning).workBlocks (some machine.2) blocks).1.flatten = done.1 := by
  induction blocks generalizing machine memory done with
  | nil =>
      cases audio
      rfl
  | cons block rest inductionHypothesis =>
      rw [List.forall_mem_cons] at admissible
      have carries :=
        audioBlock_carries f offsetTuning continuous machine memory block recalls admissible.1
      rw [feedBlocks, Option.bind_eq_some_iff] at audio
      obtain ⟨first, working, audio⟩ := audio
      obtain ⟨later, feeding, rfl⟩ := Option.map_eq_some_iff.mp audio
      rw [working] at carries
      obtain ⟨made, next⟩ : ∃ made, Recalls offsetTuning o first.2 made := by
        generalize audioStage f o memory (contents offsetTuning block) = staged at carries
        cases carries with
        | some agree => exact ⟨_, agree.2⟩
      unfold audioBlock at working
      rw [recalls.dongle] at working
      obtain ⟨demodulated, demodulating, rfl⟩ := Option.map_eq_some_iff.mp working
      have loud : demodulated.squelchLevel = 0 := by
        rw [show demodulated.squelchLevel = demodulated.options.squelchLevel from rfl,
          show demodulated.options = o from next.options]
        exact continuous.squelch
      have one :
          (audioWork f offsetTuning).workBlock (some machine.2) block =
            ([window demodulated.result 0 demodulated.resultLen], some demodulated) := by
        have made :
            (audioWork f offsetTuning).fullDemod
                ((audioWork f offsetTuning).receive (some machine.2) block) =
              some demodulated := demodulating
        have quiet : (audioWork f offsetTuning).squelched (some demodulated) = false := by
          simp [audioWork, loud]
        unfold Work.workBlock
        rw [made]
        exact if_neg (by rw [quiet]; decide)
      rw [Work.workBlocks, one]
      simp only [List.singleton_append, List.flatten_cons, SeamlessStages.behind]
      rw [inductionHypothesis next admissible.2 feeding]

/-- A block, with both threads waiting before it and behind it. -/
def capturing : List (ThreadAction Block) :=
  [.testDemod, .waitDemod, .testOutput, .waitOutput, .callback ⟨fun _ => 200, 32⟩,
    .copyBlock, .signalDemod, .demodulate, .publish, .signalOutput, .write, .testDemod,
    .waitDemod, .testOutput, .waitOutput]

/-- The threads behind the block, with four samples to a group. -/
def capturedThreads : Threads (Option FullDemod) Block (List Int16) :=
  (run (Threads.step (audioWork quietParts true))
    (Threads.start (some { demodInit with downsample := 4 }) []) capturing).getD
      (Threads.start none [])

end LibRtlSdr.RtlFm
