import LibRtlSdr.BoundedBuffer
import LibRtlSdr.CheckedInt
import LibRtlSdr.PartialRun

namespace LibRtlSdr.RtlFm

/-!
# The channel list of `rtl_fm`: the option `-f`

An option adds one frequency, two, or those of a range to `freqs`.  The limit is
checked ahead of an option, and in a range behind every frequency.  A write outside of
`freqs` has no result, and neither has a loop that does not end.
-/

open BoundedBuffer (put?)
open PartialRun (run EveryState)

/-- `FREQUENCIES_LIMIT`. -/
def frequenciesLimit : Nat := 1000

/--
The casts `(uint32_t)atofs` and `(int)atofs` of a text, and what a sum is when it
overflows an `int`.
-/
structure Atofs where
  unsigned : List Char → UInt32
  signed : List Char → Int
  overflow : Int → Int

/-- What `-f` uses of `struct controller_state`. -/
structure Controller where
  freqs : Nat → UInt32
  freqLen : Nat

/-- `controller_init`. -/
def controllerInit : Controller where
  freqs := fun _ => 0
  freqLen := 0

/-! ## Source -/

/-- `strchr(text, ':')`: the text before the first colon, and the text behind it. -/
def strchr (text : List Char) : Option (List Char × List Char) :=
  match text.dropWhile (· ≠ ':') with
  | [] =>
      none
  | _ :: behind =>
      some (text.takeWhile (· ≠ ':'), behind)

/-- `s->freqs[s->freq_len] = freq; s->freq_len++`. -/
def addFrequency (s : Controller) (freq : UInt32) : Option Controller := do
  let freqs ← put? frequenciesLimit s.freqLen freq s.freqs
  return { freqs := freqs, freqLen := s.freqLen + 1 }

/-- `i += step`. -/
def nextFrequency (atofs : Atofs) (i step : Int) : Int :=
  if CheckedInt.Fits (i + step) then i + step else atofs.overflow (i + step)

/-- The loop of `frequency_range`, if it ends within so many rounds. -/
def rangeLoop (atofs : Atofs) (stop step : Int) :
    Nat → Int → Controller → Option Controller
  | 0, _, _ =>
      none
  | rounds + 1, i, s =>
      if i ≤ stop then do
        let added ← addFrequency s (UInt32.ofInt i)
        if frequenciesLimit ≤ added.freqLen then
          return added
        else
          rangeLoop atofs stop step rounds (nextFrequency atofs i step) added
      else
        some s

/-- `frequency_range`. -/
def frequencyRange (atofs : Atofs) (s : Controller) (arg : List Char) :
    Option Controller :=
  match strchr arg with
  | none =>
      -- no stop or step given
      addFrequency s (atofs.unsigned arg)
  | some (start, behind) =>
      match strchr behind with
      | none => do
          -- no step given
          let added ← addFrequency s (atofs.unsigned start)
          addFrequency added (atofs.unsigned behind)
      | some (stop, step) =>
          rangeLoop atofs (atofs.signed stop) (atofs.signed step) frequenciesLimit
            (atofs.signed start) s

/-- The option `-f` in `main`. -/
def frequencyOption (atofs : Atofs) (s : Controller) (arg : List Char) :
    Option Controller :=
  if frequenciesLimit ≤ s.freqLen then
    some s
  else if (strchr arg).isSome then
    frequencyRange atofs s arg
  else
    addFrequency s (atofs.unsigned arg)

/-! ## The limit -/

/-- The frequencies are within the limit. -/
def WithinLimit (s : Controller) : Prop :=
  s.freqLen ≤ frequenciesLimit

/-- `a:b`: one colon. -/
def IsPair (arg : List Char) : Prop :=
  ∃ start stop, strchr arg = some (start, stop) ∧ strchr stop = none

/-- The last place is left when a pair is added. -/
def PairAtLast (s : Controller) (arg : List Char) : Prop :=
  s.freqLen = frequenciesLimit - 1 ∧ IsPair arg

/-- A frequency is added as long as there is a place. -/
theorem addFrequency_of_lt
    {s : Controller}
    (room : s.freqLen < frequenciesLimit)
    (freq : UInt32) :
    addFrequency s freq =
      some {
        freqs := Function.update s.freqs s.freqLen freq
        freqLen := s.freqLen + 1
      } := by
  unfold addFrequency
  rw [BoundedBuffer.put?_of_lt room]
  rfl

/-- Behind the last place nothing can be written. -/
theorem addFrequency_of_full
    {s : Controller}
    (full : frequenciesLimit ≤ s.freqLen)
    (freq : UInt32) :
    addFrequency s freq = none := by
  unfold addFrequency put?
  rw [if_neg (Nat.not_lt.mpr full)]
  rfl

/-- A range ends at the limit at the latest, whatever its step and its overflows. -/
theorem rangeLoop_ends
    (atofs : Atofs)
    (stop step : Int)
    {rounds : Nat}
    {s : Controller}
    (room : s.freqLen < frequenciesLimit)
    (enough : frequenciesLimit ≤ s.freqLen + rounds)
    (i : Int) :
    ∃ after, rangeLoop atofs stop step rounds i s = some after ∧ WithinLimit after := by
  induction rounds generalizing i s with
  | zero =>
      omega
  | succ rounds inductionHypothesis =>
      unfold rangeLoop
      by_cases more : i ≤ stop
      · rw [if_pos more, addFrequency_of_lt room]
        simp only [Option.bind_eq_bind, Option.bind_some]
        by_cases full : frequenciesLimit ≤ s.freqLen + 1
        · rw [if_pos full]
          exact ⟨_, rfl, show s.freqLen + 1 ≤ frequenciesLimit from room⟩
        · rw [if_neg full]
          apply inductionHypothesis
          · exact Nat.not_le.mp full
          · change frequenciesLimit ≤ s.freqLen + 1 + rounds
            omega
      · rw [if_neg more]
        exact ⟨s, rfl, Nat.le_of_lt room⟩

/-- An option at which the last place is not left for a pair. -/
theorem frequencyOption_within
    (atofs : Atofs)
    {s : Controller}
    (within : WithinLimit s)
    {arg : List Char}
    (notLast : ¬ PairAtLast s arg) :
    ∃ next, frequencyOption atofs s arg = some next ∧ WithinLimit next := by
  unfold frequencyOption
  by_cases full : frequenciesLimit ≤ s.freqLen
  · rw [if_pos full]
    exact ⟨s, rfl, within⟩
  · have room : s.freqLen < frequenciesLimit := Nat.not_le.mp full
    have added := addFrequency_of_lt room
    rw [if_neg full]
    unfold frequencyRange
    cases first : strchr arg with
    | none =>
        exact ⟨_, added _, room⟩
    | some parts =>
        obtain ⟨start, behind⟩ := parts
        simp only [Option.isSome_some, if_true]
        cases second : strchr behind with
        | none =>
            have isPair : IsPair arg := ⟨start, behind, first, second⟩
            have another : s.freqLen + 1 < frequenciesLimit := by
              have notHere : s.freqLen ≠ frequenciesLimit - 1 :=
                fun last => notLast ⟨last, isPair⟩
              omega
            have addedStop :=
              @addFrequency_of_lt
                { freqs := Function.update s.freqs s.freqLen (atofs.unsigned start)
                  freqLen := s.freqLen + 1 } another (atofs.unsigned behind)
            simp only [added, Option.bind_eq_bind, Option.bind_some, addedStop]
            exact ⟨_, rfl, another⟩
        | some parts =>
            obtain ⟨stop, step⟩ := parts
            exact rangeLoop_ends atofs _ _ room (by omega) _

/-- A pair at the last place writes behind `freqs`. -/
theorem frequencyOption_beyond
    (atofs : Atofs)
    {s : Controller}
    {arg : List Char}
    (last : PairAtLast s arg) :
    frequencyOption atofs s arg = none := by
  obtain ⟨isLast, start, stop, first, second⟩ := last
  have room : s.freqLen < frequenciesLimit := by
    rw [isLast]
    decide
  have full : frequenciesLimit ≤ s.freqLen + 1 := by
    rw [isLast]
    decide
  unfold frequencyOption frequencyRange
  rw [if_neg (Nat.not_le.mpr room), first]
  simp only [Option.isSome_some, if_true, second, addFrequency_of_lt room,
    Option.bind_eq_bind, Option.bind_some]
  exact addFrequency_of_full full _

/--
For every sequence of options: all writes are to `freqs`, all ranges end and the limit
is kept throughout, if and only if no pair is added when just the last place is left.
-/
theorem frequencyOptions_iff
    (atofs : Atofs)
    (args : List (List Char)) :
    ((run (frequencyOption atofs) controllerInit args).isSome ∧
      EveryState (frequencyOption atofs) WithinLimit controllerInit args) ↔
      ∀ earlier arg later s,
        args = earlier ++ arg :: later →
          run (frequencyOption atofs) controllerInit earlier = some s →
            ¬ PairAtLast s arg := by
  have initially : WithinLimit controllerInit := Nat.zero_le _
  have preserved :
      ∀ {s : Controller} {arg : List Char} {next : Controller},
        WithinLimit s → frequencyOption atofs s arg = some next → WithinLimit next := by
    intro s arg next within taken
    have notLast : ¬ PairAtLast s arg := by
      intro last
      rw [frequencyOption_beyond atofs last] at taken
      cases taken
    obtain ⟨after, isAfter, withinAfter⟩ := frequencyOption_within atofs within notLast
    rw [taken, Option.some.injEq] at isAfter
    rw [isAfter]
    exact withinAfter
  have defined :
      ∀ {s : Controller} {arg : List Char},
        WithinLimit s →
          ((frequencyOption atofs s arg).isSome ↔ ¬ PairAtLast s arg) := by
    intro s arg within
    constructor
    · intro isSome last
      rw [frequencyOption_beyond atofs last] at isSome
      cases isSome
    · intro notLast
      obtain ⟨next, taken, -⟩ := frequencyOption_within atofs within notLast
      rw [taken]
      rfl
  have everyState :
      EveryState (frequencyOption atofs) WithinLimit controllerInit args :=
    fun _ _ _ _ reached => PartialRun.invariant WithinLimit preserved initially reached
  rw [← PartialRun.run_isSome_iff preserved defined initially args]
  exact and_iff_left everyState

/-- Single frequencies fill the list one by one. -/
theorem run_singles
    (atofs : Atofs)
    {arg : List Char}
    (single : strchr arg = none)
    {count : Nat}
    (fits : count ≤ frequenciesLimit) :
    ∃ s,
      run (frequencyOption atofs) controllerInit (List.replicate count arg) = some s ∧
        s.freqLen = count := by
  induction count with
  | zero =>
      exact ⟨controllerInit, rfl, rfl⟩
  | succ count inductionHypothesis =>
      obtain ⟨s, reached, length⟩ := inductionHypothesis (Nat.le_of_succ_le fits)
      have room : s.freqLen < frequenciesLimit := by
        rw [length]
        exact fits
      have taken :
          frequencyOption atofs s arg =
            some {
              freqs := Function.update s.freqs s.freqLen (atofs.unsigned arg)
              freqLen := s.freqLen + 1
            } := by
        unfold frequencyOption
        rw [if_neg (Nat.not_le.mpr room), single]
        exact addFrequency_of_lt room _
      rw [List.replicate_succ']
      exact ⟨_, PartialRun.run_concat_eq_some.mpr ⟨s, reached, taken⟩, by rw [length]⟩

/-- The casts of the digits below. -/
def digits : Atofs where
  unsigned := fun text => if text = ['2'] then 2 else 1
  signed := fun text => if text = ['2'] then 2 else 1
  overflow := fun sum => sum

/-- A pair behind 999 frequencies. -/
theorem frequencyOptions_beyond :
    run (frequencyOption digits) controllerInit
        (List.replicate 999 ['1'] ++ [['1', ':', '2']]) = none := by
  obtain ⟨s, reached, length⟩ :=
    run_singles digits (show strchr ['1'] = none by decide)
      (show 999 ≤ frequenciesLimit by decide)
  rw [PartialRun.run_concat, reached, Option.bind_some]
  exact frequencyOption_beyond digits ⟨length, ['1'], ['2'], by decide, by decide⟩

end LibRtlSdr.RtlFm
