import LibRtlSdr.RtlSdrCenterFreq

namespace LibRtlSdr.RtlSdr

open DriverProgram

/-!
# How often a tuning call is nested

`rtlsdr_set_center_freq` calls itself through `_rtlsdr_set_direct_sampling`.
Here the nested call is a parameter of the function, and what it is called with
is what can make it nest further: it finds the sampling mode that the outer
call chose, and a frequency that is the requested one or zero.  Two nested
calls are therefore enough, whatever the hardware answers.
-/

section Nesting

variable {Hardware : Type} (board : Board Hardware)

/-- `rtlsdr_set_center_freq` with the function that it is nested in itself as. -/
def centerFreqWith
    (again : UInt32 → Program (Device Hardware) Int32)
    (freq : UInt32) :
    Program (Device Hardware) Int32 := do
  let device ← get
  if board.tuner.isNone then
    return -1
  else if device.directSampling < 0 then
    return 1
  else
    set (device.aimedAt freq)
    let answer ← tune board freq
    modify (fun device => device.tuned freq answer)
    let lastDs := device.directSampling
    let device ← get
    if lastDs ≠ device.directSampling then
      switchSampling board again device.directSampling
    else
      return answer

/-- `rtlsdr_set_center_freq`, with another function for the calls that nest so deep. -/
def centerFreqOver
    (deeper : UInt32 → Program (Device Hardware) Int32) :
    Nat → UInt32 → Program (Device Hardware) Int32
  | 0 => deeper
  | nested + 1 => centerFreqWith board (centerFreqOver deeper nested)

/-- A nested call of a tuning to `freq` may find this device. -/
structure Device.Nests
    (device : Device Hardware)
    (freq : UInt32)
    (nested : Device Hardware) : Prop where
  changed : device.directSampling ≠ device.samplingFor freq
  sampling : nested.directSampling = device.samplingFor freq
  mode : nested.directSamplingMode = device.directSamplingMode
  type : nested.tunerType = device.tunerType
  freqs : nested.freq = freq ∨ nested.freq = 0

variable {device : Device Hardware} {freq : UInt32}

/-- What a switch calls last decides between two switches. -/
theorem switchSampling_congr
    {again other : UInt32 → Program (Device Hardware) Int32}
    {on : Int}
    (same :
      ∀ nested : Device Hardware,
        nested.software = device.software.switchedTo on →
        (again nested.freq).run nested = (other nested.freq).run nested) :
    (switchSampling board again on).run device =
      (switchSampling board other on).run device := by
  unfold switchSampling
  apply run_bind_congr
  intro _ _ gets
  rcases yields_get.mp gets with ⟨rfl, rfl⟩
  apply run_bind_congr
  intro _ middle switches
  have kept : middle.software = device.software :=
    Keeps.orAll (switchOperations_keep board _ _) switches
  apply run_bind_congr
  intro _ _ switched
  rcases yields_modify.mp switched with rfl
  apply run_bind_congr
  intro _ _ gets
  rcases yields_get.mp gets with ⟨rfl, rfl⟩
  rw [StateT.run_bind, StateT.run_bind,
    same (middle.switchedTo on) (by rw [Device.switchedTo_software, kept])]

/-- The nested calls that a tuning can make decide between two tunings. -/
theorem centerFreqWith_congr
    {again other : UInt32 → Program (Device Hardware) Int32}
    (same :
      ∀ nested, device.Nests freq nested →
        (again nested.freq).run nested = (other nested.freq).run nested) :
    (centerFreqWith board again freq).run device =
      (centerFreqWith board other freq).run device := by
  unfold centerFreqWith
  apply run_bind_congr
  intro _ _ gets
  rcases yields_get.mp gets with ⟨rfl, rfl⟩
  split
  · rfl
  split
  · rfl
  apply run_bind_congr
  intro _ _ aims
  rcases yields_set.mp aims with rfl
  apply run_bind_congr
  intro answer middle tunes
  apply run_bind_congr
  intro _ _ tuned
  rcases yields_modify.mp tuned with rfl
  apply run_bind_congr
  intro _ _ gets
  rcases yields_get.mp gets with ⟨rfl, rfl⟩
  have software :
      (middle.tuned freq answer).software =
        ((device.aimedAt freq).tuned freq answer).software := by
    rw [Device.tuned_software, Device.tuned_software,
      tune_keeps board freq tunes]
  have sampling :
      (middle.tuned freq answer).directSampling = device.samplingFor freq :=
    congrArg Device.directSampling software
  rw [sampling]
  split
  · rename_i changed
    apply switchSampling_congr
    intro nested isNested
    have fields :
        nested.software =
          (((device.aimedAt freq).tuned freq answer).switchedTo
            (device.samplingFor freq)).software := by
      rw [isNested, software, Device.switchedTo_software]
    apply same
    constructor
    · exact changed
    · exact congrArg (fun device : Device Unit => device.directSampling) fields
    · exact congrArg (fun device : Device Unit => device.directSamplingMode)
        fields
    · exact congrArg (fun device : Device Unit => device.tunerType) fields
    · have isFreq : nested.freq = if answer = 0 then freq else 0 :=
        congrArg (fun device : Device Unit => device.freq) fields
      by_cases accepted : answer = 0
      · exact Or.inl (isFreq.trans (if_pos accepted))
      · exact Or.inr (isFreq.trans (if_neg accepted))
  · rfl

/--
Behind two nested calls the sampling mode stays: the mode may change back only
for a frequency of zero, which is the one that a failed tuning leaves.
-/
theorem Device.Nests.settled
    {second third : Device Hardware}
    (nests : device.Nests freq second)
    (nestsAgain : second.Nests second.freq third) :
    third.directSampling = third.samplingFor third.freq := by
  rcases nests with ⟨changed, sampling, mode, type, freqs⟩
  rcases nestsAgain with
    ⟨changedThen, samplingThen, modeThen, typeThen, freqsThen⟩
  rw [samplingThen]
  unfold Device.samplingFor at *
  rw [modeThen, mode, typeThen, type] at *
  by_cases automatic : device.directSamplingMode = 0
  · simp only [automatic, ↓reduceIte] at *
    rcases freqs with isFreq | isZero
    · rw [isFreq, sampling] at changedThen
      exact absurd rfl changedThen
    · have zeroThen : third.freq = 0 := by
        rcases freqsThen with isFreq | isZero
        · rw [isFreq, ‹second.freq = 0›]
        · exact isZero
      rw [zeroThen, isZero]
  · simp only [automatic, ↓reduceIte, ne_eq, not_true_eq_false] at changed

/-- A third nested call is never made. -/
theorem centerFreqOver_congr
    (deeper other : UInt32 → Program (Device Hardware) Int32) :
    (centerFreqOver board deeper 3 freq).run device =
      (centerFreqOver board other 3 freq).run device := by
  apply centerFreqWith_congr
  intro second nests
  apply centerFreqWith_congr
  intro third nestsAgain
  apply centerFreqWith_congr
  intro _ nestsOnceMore
  exact absurd (nests.settled nestsAgain) nestsOnceMore.changed

/-- Counting the nested calls is one way to go on below them. -/
theorem centerFreqOver_throw
    (nested : Nat) :
    centerFreqOver board (fun _ => throw .nestedTooDeep) nested =
      setCenterFreqAt board nested := by
  induction nested with
  | zero =>
      funext freq
      rfl
  | succ nested inductionHypothesis =>
      funext freq
      unfold centerFreqOver
      rw [inductionHypothesis]
      rfl

/-- `rtlsdr_set_center_freq` makes two nested calls at most. -/
theorem setCenterFreq_over
    (deeper : UInt32 → Program (Device Hardware) Int32)
    (freq : UInt32)
    (device : Device Hardware) :
    (centerFreqOver board deeper 3 freq).run device =
      (setCenterFreq board freq).run device := by
  unfold setCenterFreq
  rw [← centerFreqOver_throw]
  exact centerFreqOver_congr board deeper _

/-- `rtlsdr_set_center_freq` is a solution of its recursion. -/
theorem setCenterFreq_eq :
    setCenterFreq board = centerFreqWith board (setCenterFreq board) := by
  funext freq
  apply StateT.ext
  intro device
  exact (setCenterFreq_over board (setCenterFreqAt board 1) freq device).symm

/-- `_rtlsdr_set_direct_sampling` makes three nested calls at most. -/
theorem switchDirectSampling_over
    (deeper : UInt32 → Program (Device Hardware) Int32)
    (on : Int)
    (device : Device Hardware) :
    (switchSampling board (centerFreqOver board deeper 3) on).run device =
      (switchDirectSampling board on).run device := by
  apply switchSampling_congr
  intro nested _
  exact setCenterFreq_over board deeper nested.freq nested

/-- `rtlsdr_set_direct_sampling` with the function that it tunes again with. -/
def directSamplingWith
    (again : UInt32 → Program (Device Hardware) Int32)
    (on : Int) :
    Program (Device Hardware) Int32 := do
  modify (fun device => { device with directSamplingMode := on })
  switchSampling board again on

/--
The mutual recursion ends.  `rtlsdr_set_center_freq` is a solution of it, and
whatever the calls below its second nested one would do, they are not made; nor
is a fourth one that the two other functions would lead to.
-/
theorem nested_calls_end
    (deeper : UInt32 → Program (Device Hardware) Int32)
    (device : Device Hardware) :
    setCenterFreq board = centerFreqWith board (setCenterFreq board) ∧
      (∀ freq,
        (centerFreqOver board deeper 3 freq).run device =
          (setCenterFreq board freq).run device) ∧
      (∀ on,
        (switchSampling board (centerFreqOver board deeper 3) on).run device =
          (switchDirectSampling board on).run device) ∧
      (∀ on,
        (directSamplingWith board (centerFreqOver board deeper 3) on).run
            device =
          (setDirectSampling board on).run device) := by
  refine ⟨setCenterFreq_eq board, fun freq => setCenterFreq_over board deeper freq device,
    fun on => switchDirectSampling_over board deeper on device, fun on => ?_⟩
  unfold directSamplingWith setDirectSampling
  apply run_bind_congr
  intro _ moded _
  exact switchDirectSampling_over board deeper on moded

end Nesting

end LibRtlSdr.RtlSdr
