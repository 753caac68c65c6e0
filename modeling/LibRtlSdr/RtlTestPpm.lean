import LibRtlSdr.PartialRun
import Mathlib.Algebra.Order.Ring.Int
import Mathlib.Tactic.ByContra

namespace LibRtlSdr.RtlTest

open PartialRun (run)

/-!
# The clock of the PPM test

`ppm_test` is to throw away the first seconds of data and to count the samples from then
on.  It sets a deadline at its first call; each later call compares the deadline with the
clock, and the comparison stands the wrong way round.
-/

/-! ## Source -/

/-- What `clock_gettime` stores. -/
structure Time where
  sec : Int
  nsec : Int
  normal : 0 ≤ nsec ∧ nsec < 1000000000
  deriving DecidableEq

def Time.nanoseconds (time : Time) : Int :=
  time.sec * 1000000000 + time.nsec

/-- A call of `ppm_test`, and the time that it reads. -/
structure Call where
  now : Time
  len : UInt32

/-- `ppm_init`. -/
inductive PpmInit where
  | no
  | dump
  | run
  deriving DecidableEq

/-- What the line of a report is computed from. -/
structure Report where
  /-- "real sample rate", before it becomes an `int`. -/
  realSampleRate : UInt64
  nsamples : UInt64
  interval : UInt64
  nsamplesTotal : UInt64
  intervalTotal : UInt64

/-- The static variables of `ppm_test`, and the reports printed so far. -/
structure Ppm where
  nsamples : UInt64
  interval : UInt64
  nsamplesTotal : UInt64
  intervalTotal : UInt64
  ppmRecent : Time
  ppmInit : PpmInit
  reports : List Report

def Ppm.initial : Ppm where
  nsamples := 0
  interval := 0
  nsamplesTotal := 0
  intervalTotal := 0
  ppmRecent := ⟨0, 0, by decide⟩
  ppmInit := .no
  reports := []

/-- `PPM_DUMP_TIME`, in seconds. -/
def ppmDumpTime : Int :=
  5

/-- `ppm_test`; it has no result where it divides by an interval of zero. -/
def ppmTest (ppmDuration : UInt32) (s : Ppm) (call : Call) : Option Ppm :=
  match s.ppmInit with
  | .no =>
      some
        { s with
          ppmRecent := { s.ppmRecent with sec := call.now.sec + ppmDumpTime }
          ppmInit := .dump }
  | .dump =>
      if s.ppmRecent.sec < call.now.sec then
        some s
      else
        some { s with ppmRecent := call.now, ppmInit := .run }
  | .run =>
      let nsamples := s.nsamples + call.len.toUInt64 / 2
      let interval := UInt64.ofInt (call.now.sec - s.ppmRecent.sec)
      if interval < ppmDuration.toUInt64 then
        some { s with nsamples := nsamples, interval := interval }
      else
        let interval := interval * 1000000000
        let interval := interval + UInt64.ofInt (call.now.nsec - s.ppmRecent.nsec)
        let nsamplesTotal := s.nsamplesTotal + nsamples
        let intervalTotal := s.intervalTotal + interval
        if interval = 0 then
          none
        else
          some
            { s with
              nsamples := 0
              interval := interval
              nsamplesTotal := nsamplesTotal
              intervalTotal := intervalTotal
              ppmRecent := call.now
              reports :=
                s.reports ++
                  [{ realSampleRate := 1000000000 * nsamples / interval
                     nsamples := nsamples
                     interval := interval
                     nsamplesTotal := nsamplesTotal
                     intervalTotal := intervalTotal }] }

/-! ## Counting -/

/-- The samples counted so far, reported or not. -/
def Ppm.counted (s : Ppm) : UInt64 :=
  s.nsamplesTotal + s.nsamples

/-- The nanoseconds from one call to another. -/
def passed (first call : Call) : Int :=
  call.now.nanoseconds - first.now.nanoseconds

/-- `PPM_DUMP_TIME` in nanoseconds. -/
def dumpNanoseconds : Int :=
  ppmDumpTime * 1000000000

/-- "PPM_DUMP_TIME throws out the first N seconds of data": no call counts samples before
that time has passed since the first one, and the first call behind it leaves the machine
running. -/
def ThrowsAway (ppmDuration : UInt32) (calls : List Call) : Prop :=
  ∀ first earlier call rest before after,
    calls.head? = some first →
    calls = earlier ++ call :: rest →
    run (ppmTest ppmDuration) Ppm.initial earlier = some before →
    ppmTest ppmDuration before call = some after →
      (after.counted ≠ before.counted → dumpNanoseconds ≤ passed first call) ∧
        (dumpNanoseconds < passed first call →
          (∀ other ∈ earlier, passed first other ≤ dumpNanoseconds) →
            after.ppmInit = .run)

/-- Samples and clocks of the calls: the second call comes in the first seconds, and no
call behind it brings samples before they have passed. -/
def KeepsDumpTime : List Call → Prop
  | first :: second :: rest =>
      second.now.sec ≤ first.now.sec + ppmDumpTime ∧
        ∀ call ∈ rest, call.len / 2 ≠ 0 → dumpNanoseconds ≤ passed first call
  | _ => True

section Steps

variable {ppmDuration : UInt32} {before after : Ppm} {call : Call}

/-- A running machine counts the samples of every call. -/
theorem ppmTest_run
    (running : before.ppmInit = .run)
    (step : ppmTest ppmDuration before call = some after) :
    after.ppmInit = .run ∧ after.counted = before.counted + call.len.toUInt64 / 2 := by
  unfold ppmTest at step
  rw [running] at step
  dsimp only at step
  unfold Ppm.counted
  split at step
  · obtain rfl := Option.some.inj step
    exact ⟨rfl, (UInt64.add_assoc _ _ _).symm⟩
  · split at step
    · exact absurd step (by simp)
    · obtain rfl := Option.some.inj step
      exact ⟨rfl, by simp [UInt64.add_assoc]⟩

/-- A machine that does not run yet counts nothing. -/
theorem ppmTest_counted
    (waiting : before.ppmInit ≠ .run)
    (step : ppmTest ppmDuration before call = some after) :
    after.counted = before.counted := by
  unfold ppmTest at step
  split at step
  · obtain rfl := Option.some.inj step
    rfl
  · split at step <;>
    · obtain rfl := Option.some.inj step
      rfl
  · rename_i running
    exact absurd running waiting

/-- Once it runs, it runs on. -/
theorem run_running
    {calls : List Call}
    (running : before.ppmInit = .run)
    (reached : run (ppmTest ppmDuration) before calls = some after) :
    after.ppmInit = .run :=
  PartialRun.invariant (fun s => s.ppmInit = .run)
    (fun running step => (ppmTest_run running step).1) running reached

/-- A call brings samples when it is two bytes long. -/
theorem samples_ne_zero (len : UInt32) :
    len.toUInt64 / 2 ≠ 0 ↔ len / 2 ≠ 0 := by
  rw [ne_eq, ne_eq, ← UInt64.toNat_inj, ← UInt32.toNat_inj, UInt64.toNat_div,
    UInt32.toNat_div, UInt32.toNat_toUInt64]
  rfl

end Steps

/-- The machine behind the first call. -/
def Ppm.dumping (first : Call) : Ppm :=
  { Ppm.initial with
    ppmRecent := { Ppm.initial.ppmRecent with sec := first.now.sec + ppmDumpTime }
    ppmInit := .dump }

theorem Ppm.dumping_waits (first : Call) : (Ppm.dumping first).ppmInit ≠ .run := by
  simp [Ppm.dumping]

/-- Behind the second call the machine runs, unless that call came late. -/
theorem run_two
    (ppmDuration : UInt32)
    (first second : Call) :
    ∃ s,
      run (ppmTest ppmDuration) Ppm.initial [first, second] = some s ∧
        s.counted = 0 ∧
          (s.ppmInit = .run ↔ second.now.sec ≤ first.now.sec + ppmDumpTime) := by
  have begun : ppmTest ppmDuration Ppm.initial first = some (Ppm.dumping first) := rfl
  rw [PartialRun.run_cons, begun, Option.bind_some, PartialRun.run_cons]
  unfold ppmTest Ppm.dumping
  dsimp only
  split
  · rename_i isLate
    refine ⟨_, rfl, rfl, ?_⟩
    simp only [reduceCtorEq, false_iff]
    omega
  · rename_i isEarly
    refine ⟨_, rfl, rfl, ?_⟩
    simp only [true_iff]
    omega

/-- Behind a second call that came early the machine runs on. -/
theorem running_behind_two
    {ppmDuration : UInt32}
    {first second : Call}
    {between : List Call}
    {before : Ppm}
    (isEarly : second.now.sec ≤ first.now.sec + ppmDumpTime)
    (reached :
      run (ppmTest ppmDuration) Ppm.initial (first :: second :: between) = some before) :
    before.ppmInit = .run := by
  obtain ⟨running, begun, -, isRunning⟩ := run_two ppmDuration first second
  rw [show first :: second :: between = [first, second] ++ between from rfl,
    PartialRun.run_append, begun] at reached
  exact run_running (isRunning.mpr isEarly) reached

/-- No time has passed at the first call. -/
theorem not_behind_first (first : Call) : ¬ dumpNanoseconds < passed first first := by
  unfold passed dumpNanoseconds ppmDumpTime
  omega

/-- The calls behind the second one count their samples. -/
theorem throwsAway_of_keepsDumpTime
    {ppmDuration : UInt32}
    {first second : Call}
    {rest : List Call}
    (isEarly : second.now.sec ≤ first.now.sec + ppmDumpTime)
    (isLate : ∀ call ∈ rest, call.len / 2 ≠ 0 → dumpNanoseconds ≤ passed first call) :
    ThrowsAway ppmDuration (first :: second :: rest) := by
  obtain ⟨running, begun, -, isRunning⟩ := run_two ppmDuration first second
  intro first' earlier call later before after isFirst split reached step
  obtain rfl : first = first' := Option.some.inj isFirst
  match earlier, split with
  | [], split =>
      obtain ⟨rfl, -⟩ := List.cons.inj split
      obtain rfl := Option.some.inj reached
      exact
        ⟨fun counts => absurd (ppmTest_counted (by decide) step) counts,
          fun isBehind => absurd isBehind (not_behind_first first)⟩
  | [one], split =>
      obtain ⟨rfl, sameRest⟩ := List.cons.inj split
      obtain ⟨rfl, -⟩ := List.cons.inj sameRest
      have isAfter : after = running := by
        rw [PartialRun.run_cons, Option.bind_eq_some_iff] at begun
        obtain ⟨middle, firstStep, others⟩ := begun
        rw [PartialRun.run_cons, firstStep, Option.bind_some] at reached
        obtain rfl := Option.some.inj reached
        rw [PartialRun.run_cons, step] at others
        exact Option.some.inj others
      have isDumping : before.ppmInit ≠ .run := by
        obtain rfl : Ppm.dumping first = before := Option.some.inj reached
        exact Ppm.dumping_waits first
      refine ⟨fun counts => absurd (ppmTest_counted isDumping step) counts, fun _ _ => ?_⟩
      rw [isAfter]
      exact isRunning.mpr isEarly
  | one :: other :: between, split =>
      obtain ⟨rfl, sameRest⟩ := List.cons.inj split
      obtain ⟨rfl, sameCalls⟩ := List.cons.inj sameRest
      obtain ⟨stays, counted⟩ := ppmTest_run (running_behind_two isEarly reached) step
      refine ⟨fun counts => ?_, fun _ _ => stays⟩
      apply isLate call
      · rw [sameCalls]
        exact List.mem_append_right _ List.mem_cons_self
      · rw [← samples_ne_zero]
        intro none
        rw [none, UInt64.add_zero] at counted
        exact counts counted

/-- One call is thrown away. -/
theorem throwsAway_one (ppmDuration : UInt32) (only : Call) :
    ThrowsAway ppmDuration [only] := by
  intro first earlier call later before after isFirst split reached step
  obtain rfl : only = first := Option.some.inj isFirst
  obtain ⟨rfl, rfl, rfl⟩ : earlier = [] ∧ only = call ∧ later = [] := by
    cases earlier with
    | nil =>
        obtain ⟨same, none⟩ := List.cons.inj split
        exact ⟨rfl, same, none.symm⟩
    | cons other between =>
        obtain ⟨-, none⟩ := List.cons.inj split
        exact absurd none (by simp)
  obtain rfl := Option.some.inj reached
  exact
    ⟨fun counts => absurd (ppmTest_counted (by decide) step) counts,
      fun isBehind => absurd isBehind (not_behind_first only)⟩

/-- A second call behind the first seconds leaves the machine waiting. -/
theorem early_of_throwsAway
    {ppmDuration : UInt32}
    {first second : Call}
    {rest : List Call}
    (throws : ThrowsAway ppmDuration (first :: second :: rest)) :
    second.now.sec ≤ first.now.sec + ppmDumpTime := by
  by_contra isLate
  have dumped :
      ppmTest ppmDuration (Ppm.dumping first) second = some (Ppm.dumping first) := by
    unfold ppmTest Ppm.dumping
    dsimp only
    rw [if_pos (by omega)]
  have behind :=
    (throws first [first] second rest (Ppm.dumping first) (Ppm.dumping first)
      rfl rfl rfl dumped).2
  have firstNormal := first.now.normal
  have secondNormal := second.now.normal
  have isRun :=
    behind
      (by
        unfold passed dumpNanoseconds Time.nanoseconds
        unfold ppmDumpTime at isLate ⊢
        omega)
      (by
        intro other isOther
        rw [List.mem_singleton.mp isOther]
        exact Int.not_lt.mp (not_behind_first first))
  exact Ppm.dumping_waits first isRun

/-- A further call that brings samples counts them. -/
theorem late_of_throwsAway
    {ppmDuration : UInt32}
    {first second : Call}
    {rest : List Call}
    {final : Ppm}
    (reached : run (ppmTest ppmDuration) Ppm.initial (first :: second :: rest) = some final)
    (throws : ThrowsAway ppmDuration (first :: second :: rest))
    {call : Call}
    (isCall : call ∈ rest)
    (brings : call.len / 2 ≠ 0) :
    dumpNanoseconds ≤ passed first call := by
  have isEarly := early_of_throwsAway throws
  obtain ⟨between, later, split⟩ := List.append_of_mem isCall
  rw [split] at reached
  obtain ⟨before, reachedBefore, reachedAfter⟩ :=
    @PartialRun.run_append_eq_some _ _ (ppmTest ppmDuration) Ppm.initial final
      (first :: second :: between) (call :: later) |>.mp reached
  rw [PartialRun.run_cons, Option.bind_eq_some_iff] at reachedAfter
  obtain ⟨after, step, -⟩ := reachedAfter
  have counted := (ppmTest_run (running_behind_two isEarly reachedBefore) step).2
  refine
    (throws first (first :: second :: between) call later before after rfl
      (by rw [split]; rfl) reachedBefore step).1 ?_
  rw [counted]
  intro none
  apply (samples_ne_zero call.len).mpr brings
  have same : before.counted + call.len.toUInt64 / 2 = before.counted + 0 := by
    rw [none, UInt64.add_zero]
  exact (UInt64.add_right_inj _).mp same

/-- The test throws the first seconds away, and runs behind them, exactly when the second
call comes within them and the further ones bring no samples until they have passed. -/
theorem throwsAway_iff
    {ppmDuration : UInt32}
    {calls : List Call}
    {final : Ppm}
    (reached : run (ppmTest ppmDuration) Ppm.initial calls = some final) :
    ThrowsAway ppmDuration calls ↔ KeepsDumpTime calls := by
  match calls, reached with
  | [], _ =>
      refine ⟨fun _ => True.intro, fun _ => ?_⟩
      intro first earlier call later before after isFirst
      exact absurd isFirst (by simp)
  | [only], _ =>
      exact ⟨fun _ => True.intro, fun _ => throwsAway_one ppmDuration only⟩
  | first :: second :: rest, reached =>
      constructor
      · intro throws
        exact
          ⟨early_of_throwsAway throws,
            fun _ isCall brings => late_of_throwsAway reached throws isCall brings⟩
      · rintro ⟨isEarly, isLate⟩
        exact throwsAway_of_keepsDumpTime isEarly isLate

/-- A call with a full buffer, so many milliseconds after the start of the clock. -/
def bufferAt (milliseconds : Nat) : Call where
  now :=
    { sec := milliseconds / 1000
      nsec := (milliseconds % 1000 : Nat) * 1000000
      normal := by omega }
  len := 262144

/-- A third buffer that comes behind the first seconds. -/
theorem throwsAway_late :
    ThrowsAway 10 [bufferAt 0, bufferAt 1000, bufferAt 6000] := by
  refine (throwsAway_iff rfl).mpr ⟨by decide, ?_⟩
  intro call isCall _
  rw [List.mem_singleton.mp isCall]
  decide

/-- Buffers that arrive at the default rate are counted from the third on. -/
theorem counts_at_once :
    ¬ ∀ (ppmDuration : UInt32) (calls : List Call) (final : Ppm),
      calls.Pairwise (fun one other => one.now.nanoseconds ≤ other.now.nanoseconds) →
        run (ppmTest ppmDuration) Ppm.initial calls = some final →
          ThrowsAway ppmDuration calls := by
  intro always
  have throws :=
    always 10 [bufferAt 0, bufferAt 64, bufferAt 128] _ (by decide) rfl
  have late :=
    (throws (bufferAt 0) [bufferAt 0, bufferAt 64] (bufferAt 128) [] _ _
      rfl rfl rfl rfl).1 (by decide)
  exact absurd late (by decide)

end LibRtlSdr.RtlTest
