import LibRtlSdr.RtlPowerFftStages

namespace LibRtlSdr.RtlPower

/-!
# `fix_fft` on 16-bit integers

An assignment to an `int16_t` keeps the lowest 16 bits.  A run in which no assignment
changes its value is a run of the arithmetic that has no result for any other.
-/

variable {Value : Type}

/-! ## Source -/

/-- The assignment of an `int` to an `int16_t`. -/
def truncated (value : Int) : Option Int16 :=
  some (Int16.ofInt value)

/-- The same, without a result where it changes the value. -/
def untruncated (value : Int) : Option Int16 :=
  if -32768 ≤ value ∧ value ≤ 32767 then some (Int16.ofInt value) else none

/-- The operations on `int`, with an assignment behind each. -/
def int16Arithmetic (assign : Int → Option Int16) : Arithmetic Int16 where
  neg := fun value => assign (-value.toInt)
  half := fun value => assign (value.toInt >>> (1 : Nat))
  mpy := fun a b => do
    let c := (a.toInt * b.toInt) >>> (14 : Nat)
    let b ← assign (c % 2)
    assign ((c >>> (1 : Nat)) + b.toInt)
  add := fun a b => assign (a.toInt + b.toInt)
  sub := fun a b => assign (a.toInt - b.toInt)

/-! ## Runs without a truncation -/

/-- Where the first computation has a result, the second has the same. -/
def Within {Result : Type} (first second : Option Result) : Prop :=
  ∀ result, first = some result → second = some result

theorem Within.refl {Result : Type} (value : Option Result) : Within value value :=
  fun _ same => same

theorem Within.bind
    {First Result : Type}
    {first second : Option First}
    {next other : First → Option Result}
    (firsts : Within first second)
    (nexts : ∀ value, Within (next value) (other value)) :
    Within (first.bind next) (second.bind other) := by
  intro result run
  obtain ⟨value, isFirst, isNext⟩ := Option.bind_eq_some_iff.mp run
  rw [firsts value isFirst, Option.bind_some]
  exact nexts value result isNext

theorem Within.foldlM
    {State Turn : Type}
    {step other : State → Turn → Option State}
    (steps : ∀ state turn, Within (step state turn) (other state turn))
    (turns : List Turn)
    (state : State) :
    Within (turns.foldlM step state) (turns.foldlM other state) := by
  induction turns generalizing state with
  | nil =>
      exact Within.refl _
  | cons head rest inductionHypothesis =>
      rw [List.foldlM_cons, List.foldlM_cons]
      exact (steps state head).bind inductionHypothesis

/-- Operation by operation. -/
structure Arithmetic.Within (first second : Arithmetic Value) : Prop where
  neg : ∀ value, RtlPower.Within (first.neg value) (second.neg value)
  half : ∀ value, RtlPower.Within (first.half value) (second.half value)
  mpy : ∀ a b, RtlPower.Within (first.mpy a b) (second.mpy a b)
  add : ∀ a b, RtlPower.Within (first.add a b) (second.add a b)
  sub : ∀ a b, RtlPower.Within (first.sub a b) (second.sub a b)

section Refinement

variable {first second : Arithmetic Value} (within : first.Within second)
variable (sinewave : List Value) (log2NWave : Nat)

include within

theorem twiddle_within (j : Nat) :
    Within (twiddle first sinewave log2NWave j) (twiddle second sinewave log2NWave j) := by
  unfold twiddle
  refine (Within.refl _).bind fun _ => ?_
  refine (Within.refl _).bind fun _ => ?_
  refine (within.neg _).bind fun _ => ?_
  refine (within.half _).bind fun _ => ?_
  exact (within.half _).bind fun _ => Within.refl _

theorem butterflyValues_within (w atI atJ : Value × Value) :
    Within (butterflyValues first w atI atJ) (butterflyValues second w atI atJ) := by
  unfold butterflyValues
  refine (within.mpy _ _).bind fun _ => ?_
  refine (within.mpy _ _).bind fun _ => ?_
  refine (within.sub _ _).bind fun _ => ?_
  refine (within.mpy _ _).bind fun _ => ?_
  refine (within.mpy _ _).bind fun _ => ?_
  refine (within.add _ _).bind fun _ => ?_
  refine (within.half _).bind fun _ => ?_
  refine (within.half _).bind fun _ => ?_
  refine (within.sub _ _).bind fun _ => ?_
  refine (within.sub _ _).bind fun _ => ?_
  refine (within.add _ _).bind fun _ => ?_
  exact (within.add _ _).bind fun _ => Within.refl _

theorem stage_within (n l k : Nat) (iq : Nat → Value) :
    Within (stage first sinewave log2NWave n l k iq)
      (stage second sinewave log2NWave n l k iq) := by
  apply Within.foldlM
  intro iq m
  refine (twiddle_within within sinewave log2NWave _).bind fun w => ?_
  apply Within.foldlM
  intro iq i
  exact (butterflyValues_within within w _ _).bind fun _ => Within.refl _

theorem stages_within (n l k : Nat) (iq : Nat → Value) :
    Within (stages first sinewave log2NWave n l k iq)
      (stages second sinewave log2NWave n l k iq) := by
  fun_induction stages first sinewave log2NWave n l k iq with
  | case1 k iq further =>
      exact fun _ => nofun
  | case2 l k iq further notZero inductionHypothesis =>
      rw [stages, if_pos further, if_neg notZero]
      exact (stage_within within sinewave log2NWave n l k iq).bind inductionHypothesis
  | case3 l k iq done =>
      rw [stages, if_neg done]
      exact Within.refl _

/-- The whole transform. -/
theorem fixFft_within (iq : Nat → Value) (m : Nat) :
    Within (fixFft first sinewave log2NWave iq m) (fixFft second sinewave log2NWave iq m) := by
  unfold fixFft
  split
  · exact Within.refl _
  · refine (Within.refl _).bind fun iq => ?_
    exact (stages_within within sinewave log2NWave _ _ _ iq).bind fun _ => Within.refl _

end Refinement

/-- An assignment that keeps its value is one of the machine. -/
theorem untruncated_within (value : Int) :
    Within (untruncated value) (truncated value) := by
  intro result assigned
  unfold untruncated at assigned
  split at assigned
  · exact assigned
  · cases assigned

/-- Arithmetic that truncates nothing is that of the machine. -/
theorem int16Arithmetic_within :
    (int16Arithmetic untruncated).Within (int16Arithmetic truncated) where
  neg := fun _ => untruncated_within _
  half := fun _ => untruncated_within _
  mpy := fun _ _ => (untruncated_within _).bind fun _ => untruncated_within _
  add := fun _ _ => untruncated_within _
  sub := fun _ _ => untruncated_within _

end LibRtlSdr.RtlPower
