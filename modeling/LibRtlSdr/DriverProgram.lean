import Mathlib.Logic.Basic

namespace LibRtlSdr.DriverProgram

/-!
# Programs of a driver

A C function of a driver reads and changes its state and returns an `int` that
is zero, or not negative, when all went well.  Such a function is a state
transformer that may also end without any result: the processor traps on a
division by zero, and a model that counts nested calls gives up when they nest
too deep.

`Yields` is what a program does in one state, `Keeps` is the frame rule: a part
of the state that the program leaves alone, whatever it answers.
-/

/-- Why a program ends without a result. -/
inductive Abort where
  | divisionByZero
  | nestedTooDeep
  deriving Repr, DecidableEq

/-- A function that reads and changes a state. -/
abbrev Program (State Value : Type) :=
  StateT State (Except Abort) Value

/-- A function that returns early with the first negative result of a callee. -/
abbrev Checked (State Value : Type) :=
  ExceptT Int32 (Program State) Value

variable {State Part Observed Value Result : Type}

/-- The result of a checked function as C returns it: zero, or the error. -/
def Checked.result (program : Checked State Unit) : Program State Int32 := do
  match ← program.run with
  | .error code => return code
  | .ok _ => return 0

/-- Run the operations in order and combine their results with `|=`. -/
def orAll : List (Program State Int32) → Program State Int32
  | [] => pure 0
  | operation :: rest => do
      let answer ← operation
      let others ← orAll rest
      return answer ||| others

/-- A program over a part of the state, as a program over the whole of it. -/
def onPart
    (view : State → Part)
    (update : Part → State → State)
    (program : Program Part Value) :
    Program State Value :=
  fun state =>
    (program.run (view state)).map
      (fun outcome => (outcome.1, update outcome.2 state))

/-- The program ends in the state `after` and returns `value`. -/
def Yields
    (program : Program State Value)
    (before : State)
    (value : Value)
    (after : State) : Prop :=
  program.run before = .ok (value, after)

section BigStep

variable {before after : State} {value : Value} {result : Result}

/-- A program has one outcome. -/
theorem Yields.functional
    {program : Program State Value}
    {otherValue : Value}
    {otherAfter : State}
    (first : Yields program before value after)
    (second : Yields program before otherValue otherAfter) :
    value = otherValue ∧ after = otherAfter := by
  have same : (value, after) = (otherValue, otherAfter) :=
    Except.ok.inj (first.symm.trans second)
  exact Prod.mk.inj same

@[simp] theorem yields_pure
    {given : Value} :
    Yields (pure given) before value after ↔
      given = value ∧ before = after := by
  unfold Yields
  rw [StateT.run_pure]
  simp [pure, Except.pure]

@[simp] theorem yields_bind
    {program : Program State Value}
    {next : Value → Program State Result} :
    Yields (program >>= next) before result after ↔
      ∃ value middle,
        Yields program before value middle ∧
          Yields (next value) middle result after := by
  unfold Yields
  rw [StateT.run_bind]
  cases program.run before with
  | error abort =>
      simp [bind, Except.bind]
  | ok outcome =>
      rcases outcome with ⟨value, middle⟩
      constructor
      · intro yields
        exact ⟨value, middle, rfl, yields⟩
      · rintro ⟨_, _, same, yields⟩
        cases same
        exact yields

/-- Programs that begin alike are alike when they go on alike. -/
theorem run_bind_congr
    {program : Program State Value}
    {next other : Value → Program State Result}
    (same :
      ∀ value middle,
        Yields program before value middle →
        (next value).run middle = (other value).run middle) :
    (program >>= next).run before = (program >>= other).run before := by
  rw [StateT.run_bind, StateT.run_bind]
  cases ran : program.run before with
  | error abort =>
      rfl
  | ok outcome =>
      exact same outcome.1 outcome.2 ran

@[simp] theorem yields_map
    {program : Program State Value}
    {change : Value → Result} :
    Yields (change <$> program) before result after ↔
      ∃ value, Yields program before value after ∧ change value = result := by
  rw [← bind_pure_comp, yields_bind]
  simp

@[simp] theorem yields_get
    {state : State} :
    Yields (get : Program State State) before state after ↔
      before = state ∧ before = after := by
  simp [Yields, pure, Except.pure]

@[simp] theorem yields_set
    {state : State}
    {nothing : PUnit} :
    Yields (set state : Program State PUnit) before nothing after ↔
      state = after := by
  simp [Yields, pure, Except.pure]

@[simp] theorem yields_modify
    {change : State → State}
    {nothing : PUnit} :
    Yields (modify change : Program State PUnit) before nothing after ↔
      change before = after := by
  simp [Yields, pure, Except.pure]

@[simp] theorem not_yields_throw
    {abort : Abort} :
    ¬ Yields (throw abort : Program State Value) before value after := by
  simp [Yields, throw, throwThe, MonadExceptOf.throw, StateT.run,
    StateT.lift, bind, Except.bind]

@[simp] theorem yields_onPart
    {view : State → Part}
    {update : Part → State → State}
    {program : Program Part Value} :
    Yields (onPart view update program) before value after ↔
      ∃ part,
        Yields program (view before) value part ∧
          update part before = after := by
  unfold Yields onPart
  rw [StateT.run]
  cases program.run (view before) with
  | error abort =>
      simp [Except.map]
  | ok outcome =>
      rcases outcome with ⟨answer, part⟩
      simp only [Except.map, Except.ok.injEq, Prod.mk.injEq]
      constructor
      · rintro ⟨rfl, rfl⟩
        exact ⟨part, ⟨rfl, rfl⟩, rfl⟩
      · rintro ⟨_, ⟨rfl, rfl⟩, rfl⟩
        exact ⟨rfl, rfl⟩

@[simp] theorem yields_orAll_nil
    {answer : Int32} :
    Yields (orAll []) before answer after ↔
      0 = answer ∧ before = after :=
  yields_pure

@[simp] theorem yields_orAll_cons
    {operation : Program State Int32}
    {rest : List (Program State Int32)}
    {answer : Int32} :
    Yields (orAll (operation :: rest)) before answer after ↔
      ∃ first middle others,
        Yields operation before first middle ∧
          Yields (orAll rest) middle others after ∧
          first ||| others = answer := by
  constructor
  · intro yields
    rw [orAll, yields_bind] at yields
    rcases yields with ⟨first, middle, ran, later⟩
    rw [yields_bind] at later
    rcases later with ⟨others, last, ranRest, ended⟩
    rw [yields_pure] at ended
    rcases ended with ⟨combined, rfl⟩
    exact ⟨first, middle, others, ran, ranRest, combined⟩
  · rintro ⟨first, middle, others, ran, ranRest, combined⟩
    rw [orAll, yields_bind]
    refine ⟨first, middle, ran, ?_⟩
    rw [yields_bind]
    exact ⟨others, after, ranRest, yields_pure.mpr ⟨combined, rfl⟩⟩

/-- What can be computed of the outcome of a program is what it yields. -/
theorem exists_yields
    {program : Program State Value}
    (observe : Value → State → Observed)
    {seen : Observed}
    (computed :
      (program.run before).toOption.map
          (fun outcome => observe outcome.1 outcome.2) =
        some seen) :
    ∃ value after,
      Yields program before value after ∧ observe value after = seen := by
  unfold Yields
  cases ran : program.run before with
  | error abort =>
      rw [ran] at computed
      cases computed
  | ok outcome =>
      rw [ran] at computed
      exact ⟨outcome.1, outcome.2, rfl, Option.some.inj computed⟩

end BigStep

/-- Two results combined with `|=` are zero when both are. -/
theorem or_eq_zero
    {first second : Int32} :
    first ||| second = 0 ↔ first = 0 ∧ second = 0 := by
  rw [← Int32.toBitVec_inj, Int32.toBitVec_or, ← Int32.toBitVec_inj,
    ← Int32.toBitVec_inj]
  exact BitVec.or_eq_zero_iff

/-- The program leaves what `observe` sees of the state as it was. -/
def Keeps
    (observe : State → Observed)
    (program : Program State Value) : Prop :=
  ∀ ⦃before value after⦄,
    Yields program before value after → observe after = observe before

section Frame

variable {observe : State → Observed}

protected theorem Keeps.pure
    (given : Value) :
    Keeps observe (pure given) := by
  intro before value after yields
  rw [(yields_pure.mp yields).2]

protected theorem Keeps.bind
    {program : Program State Value}
    {next : Value → Program State Result}
    (first : Keeps observe program)
    (second : ∀ value, Keeps observe (next value)) :
    Keeps observe (program >>= next) := by
  intro before value after yields
  rcases yields_bind.mp yields with ⟨answer, middle, ran, ranNext⟩
  exact (second answer ranNext).trans (first ran)

protected theorem Keeps.get :
    Keeps observe (get : Program State State) := by
  intro before value after yields
  rw [(yields_get.mp yields).2]

protected theorem Keeps.modify
    {change : State → State}
    (same : ∀ state, observe (change state) = observe state) :
    Keeps observe (modify change : Program State PUnit) := by
  intro before value after yields
  rw [← yields_modify.mp yields]
  exact same before

protected theorem Keeps.ite
    {condition : Prop}
    [Decidable condition]
    {first second : Program State Value}
    (ifTrue : Keeps observe first)
    (ifFalse : Keeps observe second) :
    Keeps observe (if condition then first else second) := by
  split
  · exact ifTrue
  · exact ifFalse

/-- Two parts that a program leaves alone, taken together. -/
protected theorem Keeps.both
    {Other : Type}
    {other : State → Other}
    {program : Program State Value}
    (first : Keeps observe program)
    (second : Keeps other program) :
    Keeps (fun state => (observe state, other state)) program := by
  intro before value after yields
  exact Prod.ext (first yields) (second yields)

protected theorem Keeps.onPart
    {Seen : Type}
    {view : State → Part}
    {update : Part → State → State}
    {program : Program Part Value}
    {seen : Part → Seen}
    (kept : Keeps seen program)
    (only :
      ∀ part state,
        seen part = seen (view state) →
        observe (update part state) = observe state) :
    Keeps observe (onPart view update program) := by
  intro before value after yields
  rcases yields_onPart.mp yields with ⟨part, ran, rfl⟩
  exact only part before (kept ran)

protected theorem Keeps.orAll
    {operations : List (Program State Int32)}
    (each : ∀ operation ∈ operations, Keeps observe operation) :
    Keeps observe (orAll operations) := by
  induction operations with
  | nil =>
      exact Keeps.pure 0
  | cons operation rest inductionHypothesis =>
      have head := each operation List.mem_cons_self
      have tail :=
        inductionHypothesis
          (fun other member => each other (List.mem_cons_of_mem _ member))
      intro before value after yields
      rcases yields_orAll_cons.mp yields with
        ⟨first, middle, others, ran, ranRest, _⟩
      exact (tail ranRest).trans (head ran)

end Frame

/-- The program leads from states with the property to such states only: partial correctness. -/
def Maintains
    (Holds : State → Prop)
    (program : Program State Value) : Prop :=
  ∀ ⦃before value after⦄,
    Holds before → Yields program before value after → Holds after

section Maintenance

variable {Holds : State → Prop}

/-- What the program leaves alone, it maintains. -/
theorem Keeps.maintains
    {observe : State → Observed}
    {program : Program State Value}
    (kept : Keeps observe program)
    (only :
      ∀ ⦃before after⦄,
        Holds before → observe after = observe before → Holds after) :
    Maintains Holds program := by
  intro before value after holds yields
  exact only holds (kept yields)

/-- What a program leaves alone has the same value behind it, whatever that is. -/
theorem keeps_iff_maintains
    {observe : State → Observed}
    {program : Program State Value} :
    Keeps observe program ↔
      ∀ seen, Maintains (fun state => observe state = seen) program := by
  constructor
  · intro kept seen
    exact kept.maintains fun _ _ holds same => same.trans holds
  · intro maintains before value after yields
    exact maintains (observe before) rfl yields

protected theorem Maintains.pure
    (given : Value) :
    Maintains Holds (pure given) := by
  intro before value after holds yields
  rw [← (yields_pure.mp yields).2]
  exact holds

protected theorem Maintains.bind
    {program : Program State Value}
    {next : Value → Program State Result}
    (first : Maintains Holds program)
    (second : ∀ value, Maintains Holds (next value)) :
    Maintains Holds (program >>= next) := by
  intro before value after holds yields
  rcases yields_bind.mp yields with ⟨answer, middle, ran, ranNext⟩
  exact second answer (first holds ran) ranNext

/-- What a program reads of its state has the property. -/
protected theorem Maintains.getBind
    {next : State → Program State Result}
    (second : ∀ state, Holds state → Maintains Holds (next state)) :
    Maintains Holds (get >>= next) := by
  intro before value after holds yields
  rw [yields_bind] at yields
  rcases yields with ⟨_, _, gets, ranNext⟩
  rcases yields_get.mp gets with ⟨rfl, rfl⟩
  exact second _ holds holds ranNext

protected theorem Maintains.set
    {state : State}
    (holds : Holds state) :
    Maintains Holds (set state : Program State PUnit) := by
  intro before value after _ yields
  rw [← yields_set.mp yields]
  exact holds

protected theorem Maintains.modify
    {change : State → State}
    (kept : ∀ state, Holds state → Holds (change state)) :
    Maintains Holds (modify change : Program State PUnit) := by
  intro before value after holds yields
  rw [← yields_modify.mp yields]
  exact kept before holds

protected theorem Maintains.ite
    {condition : Prop}
    [Decidable condition]
    {first second : Program State Value}
    (ifTrue : condition → Maintains Holds first)
    (ifFalse : ¬ condition → Maintains Holds second) :
    Maintains Holds (if condition then first else second) := by
  split
  · exact ifTrue ‹_›
  · exact ifFalse ‹_›

protected theorem Maintains.orAll
    {operations : List (Program State Int32)}
    (each : ∀ operation ∈ operations, Maintains Holds operation) :
    Maintains Holds (orAll operations) := by
  induction operations with
  | nil =>
      exact Maintains.pure 0
  | cons operation rest inductionHypothesis =>
      have head := each operation List.mem_cons_self
      have tail :=
        inductionHypothesis
          (fun other member => each other (List.mem_cons_of_mem _ member))
      intro before value after holds yields
      rcases yields_orAll_cons.mp yields with
        ⟨first, middle, others, ran, ranRest, _⟩
      exact tail (head holds ran) ranRest

end Maintenance

/-- The nesting of the calls stops the program. -/
def TooDeep
    (program : Program State Value)
    (before : State) : Prop :=
  program.run before = .error .nestedTooDeep

section Nesting

variable {before : State}

@[simp] theorem not_tooDeep_pure
    {given : Value} :
    ¬ TooDeep (pure given) before := by
  unfold TooDeep
  rw [StateT.run_pure]
  simp [pure, Except.pure]

@[simp] theorem not_tooDeep_get :
    ¬ TooDeep (get : Program State State) before := by
  simp [TooDeep, pure, Except.pure]

@[simp] theorem not_tooDeep_set
    {state : State} :
    ¬ TooDeep (set state : Program State PUnit) before := by
  simp [TooDeep, pure, Except.pure]

@[simp] theorem not_tooDeep_modify
    {change : State → State} :
    ¬ TooDeep (modify change : Program State PUnit) before := by
  simp [TooDeep, pure, Except.pure]

@[simp] theorem tooDeep_bind
    {program : Program State Value}
    {next : Value → Program State Result} :
    TooDeep (program >>= next) before ↔
      TooDeep program before ∨
        ∃ value middle,
          Yields program before value middle ∧
            TooDeep (next value) middle := by
  unfold TooDeep Yields
  rw [StateT.run_bind]
  cases program.run before with
  | error abort =>
      simp [bind, Except.bind]
  | ok outcome =>
      rcases outcome with ⟨value, middle⟩
      constructor
      · intro deep
        exact Or.inr ⟨value, middle, rfl, deep⟩
      · rintro (absurdity | ⟨_, _, same, deep⟩)
        · cases absurdity
        · cases same
          exact deep

@[simp] theorem tooDeep_onPart
    {view : State → Part}
    {update : Part → State → State}
    {program : Program Part Value} :
    TooDeep (onPart view update program) before ↔
      TooDeep program (view before) := by
  unfold TooDeep onPart
  rw [StateT.run]
  cases program.run (view before) with
  | error abort =>
      simp [Except.map]
  | ok outcome =>
      simp [Except.map]

/-- Operations that never nest too deep do not do so in a row. -/
theorem not_tooDeep_orAll
    {operations : List (Program State Int32)}
    (each : ∀ operation ∈ operations, ∀ state, ¬ TooDeep operation state)
    (state : State) :
    ¬ TooDeep (orAll operations) state := by
  induction operations generalizing state with
  | nil =>
      exact not_tooDeep_pure
  | cons operation rest inductionHypothesis =>
      have tail :=
        inductionHypothesis
          (fun other member => each other (List.mem_cons_of_mem _ member))
      rw [orAll, tooDeep_bind]
      rintro (head | ⟨first, middle, _, later⟩)
      · exact each operation List.mem_cons_self state head
      · rw [tooDeep_bind] at later
        rcases later with inRest | ⟨_, _, _, ended⟩
        · exact tail middle inRest
        · exact not_tooDeep_pure ended

end Nesting

section CheckedPrograms

/-- End a checked function without a result. -/
def Checked.fault (abort : Abort) : Checked State Value :=
  ExceptT.lift (throw abort)

/-- The outcome of a callee whose error does not end the function. -/
def Checked.outcome
    (program : Checked State Value) :
    Checked State (Except Int32 Value) :=
  ExceptT.lift program.run

variable {before after : State} {value : Value}

@[simp] theorem yields_run_pure
    {given : Value}
    {answer : Except Int32 Value} :
    Yields (pure given : Checked State Value).run before answer after ↔
      .ok given = answer ∧ before = after := by
  rw [ExceptT.run_pure]
  exact yields_pure

@[simp] theorem yields_run_throw
    {code : Int32}
    {answer : Except Int32 Value} :
    Yields (throw code : Checked State Value).run before answer after ↔
      .error code = answer ∧ before = after := by
  rw [ExceptT.run_throw]
  exact yields_pure

@[simp] theorem yields_run_get
    {answer : Except Int32 State} :
    Yields (get : Checked State State).run before answer after ↔
      .ok before = answer ∧ before = after := by
  change Except.ok (Except.ok before, before) = .ok (answer, after) ↔ _
  simp

@[simp] theorem yields_run_modify
    {change : State → State}
    {answer : Except Int32 PUnit} :
    Yields (modify change : Checked State PUnit).run before answer after ↔
      .ok ⟨⟩ = answer ∧ change before = after := by
  change Except.ok (Except.ok PUnit.unit, change before) =
    .ok (answer, after) ↔ _
  simp

@[simp] theorem yields_run_bind
    {program : Checked State Value}
    {next : Value → Checked State Result}
    {answer : Except Int32 Result} :
    Yields (program >>= next).run before answer after ↔
      (∃ code, Yields program.run before (.error code) after ∧
        .error code = answer) ∨
      ∃ value middle,
        Yields program.run before (.ok value) middle ∧
          Yields (next value).run middle answer after := by
  rw [ExceptT.run_bind, yields_bind]
  constructor
  · rintro ⟨outcome, middle, ran, later⟩
    cases outcome with
    | error code =>
        rcases yields_pure.mp later with ⟨same, rfl⟩
        exact Or.inl ⟨code, ran, same⟩
    | ok value =>
        exact Or.inr ⟨value, middle, ran, later⟩
  · rintro (⟨code, ran, same⟩ | ⟨value, middle, ran, later⟩)
    · exact ⟨.error code, after, ran, yields_pure.mpr ⟨same, rfl⟩⟩
    · exact ⟨.ok value, middle, ran, later⟩

/-- When the outcome of its first part is known, a function goes on from there. -/
theorem yields_run_bind_ok
    {program : Checked State Value}
    {next : Value → Checked State Result}
    {middle : State}
    (ran : Yields program.run before (.ok value) middle)
    {answer : Except Int32 Result} :
    Yields (program >>= next).run before answer after ↔
      Yields (next value).run middle answer after := by
  rw [yields_run_bind]
  constructor
  · rintro (⟨_, failed, _⟩ | ⟨_, _, ranAgain, later⟩)
    · cases (ran.functional failed).1
    · rcases ran.functional ranAgain with ⟨same, rfl⟩
      cases same
      exact later
  · intro later
    exact Or.inr ⟨value, middle, ran, later⟩

/-- A function that returns without an error does so in each of its parts. -/
theorem parts_of_yields_ok
    {program : Checked State Value}
    {next : Value → Checked State Result}
    {result : Result}
    (yields : Yields (program >>= next).run before (.ok result) after) :
    ∃ value middle,
      Yields program.run before (.ok value) middle ∧
        Yields (next value).run middle (.ok result) after := by
  rcases yields_run_bind.mp yields with ⟨_, _, absurdity⟩ | parts
  · cases absurdity
  · exact parts

/-- The same for a function that does not return early. -/
theorem yields_bind_of
    {program : Program State Value}
    {next : Value → Program State Result}
    {middle : State}
    (ran : Yields program before value middle)
    {result : Result} :
    Yields (program >>= next) before result after ↔
      Yields (next value) middle result after := by
  rw [yields_bind]
  constructor
  · rintro ⟨_, _, ranAgain, later⟩
    rcases ran.functional ranAgain with ⟨rfl, rfl⟩
    exact later
  · intro later
    exact ⟨value, middle, ran, later⟩

@[simp] theorem not_yields_run_fault
    {abort : Abort}
    {answer : Except Int32 Value} :
    ¬ Yields (Checked.fault abort : Checked State Value).run
      before answer after := by
  unfold Checked.fault
  rw [ExceptT.run_lift, yields_map]
  rintro ⟨_, yields, _⟩
  exact not_yields_throw yields

@[simp] theorem yields_run_outcome
    {program : Checked State Value}
    {answer : Except Int32 (Except Int32 Value)} :
    Yields program.outcome.run before answer after ↔
      ∃ outcome,
        Yields program.run before outcome after ∧ .ok outcome = answer := by
  unfold Checked.outcome
  rw [ExceptT.run_lift, yields_map]

/-- A callee that returns no error code. -/
@[simp] theorem yields_run_lift
    {program : Program State Value}
    {answer : Except Int32 Value} :
    Yields (liftM program : Checked State Value).run before answer after ↔
      ∃ value, Yields program before value after ∧ .ok value = answer := by
  change Yields (ExceptT.lift program).run before answer after ↔ _
  rw [ExceptT.run_lift, yields_map]

@[simp] theorem yields_result
    {program : Checked State Unit}
    {answer : Int32} :
    Yields program.result before answer after ↔
      (Yields program.run before (.error answer) after) ∨
      (Yields program.run before (.ok ()) after ∧ 0 = answer) := by
  unfold Checked.result
  rw [yields_bind]
  constructor
  · rintro ⟨outcome, middle, ran, later⟩
    cases outcome with
    | error code =>
        rcases yields_pure.mp later with ⟨rfl, rfl⟩
        exact Or.inl ran
    | ok nothing =>
        rcases yields_pure.mp later with ⟨same, rfl⟩
        exact Or.inr ⟨ran, same⟩
  · rintro (ran | ⟨ran, same⟩)
    · exact ⟨_, _, ran, yields_pure.mpr ⟨rfl, rfl⟩⟩
    · exact ⟨_, _, ran, yields_pure.mpr ⟨same, rfl⟩⟩

end CheckedPrograms

/-- The program leaves what `observe` sees alone, and its calls do not nest too deep. -/
structure Confined
    (observe : State → Observed)
    (program : Program State Value) : Prop where
  keeps : Keeps observe program
  flat : ∀ state, ¬ TooDeep program state

section Confinement

variable {observe : State → Observed}

/-- What leaves the state alone as seen closely does so as seen from afar. -/
protected theorem Confined.comp
    {Coarse : Type}
    {program : Program State Value}
    (forget : Observed → Coarse)
    (confined : Confined observe program) :
    Confined (fun state => forget (observe state)) program where
  keeps _ _ _ yields := congrArg forget (confined.keeps yields)
  flat := confined.flat

protected theorem Confined.runPure
    (given : Value) :
    Confined observe (pure given : Checked State Value).run := by
  rw [ExceptT.run_pure]
  exact ⟨Keeps.pure _, fun _ => not_tooDeep_pure⟩

protected theorem Confined.runThrow
    (code : Int32) :
    Confined observe (throw code : Checked State Value).run := by
  rw [ExceptT.run_throw]
  exact ⟨Keeps.pure _, fun _ => not_tooDeep_pure⟩

protected theorem Confined.runGet :
    Confined observe (get : Checked State State).run := by
  constructor
  · intro before answer after yields
    rw [(yields_run_get.mp yields).2]
  · intro state deep
    change Except.ok (Except.ok state, state) = .error _ at deep
    cases deep

protected theorem Confined.runModify
    {change : State → State}
    (same : ∀ state, observe (change state) = observe state) :
    Confined observe (modify change : Checked State PUnit).run := by
  constructor
  · intro before answer after yields
    rw [← (yields_run_modify.mp yields).2]
    exact same before
  · intro state deep
    change Except.ok (Except.ok PUnit.unit, change state) = .error _ at deep
    cases deep

protected theorem Confined.runBind
    {program : Checked State Value}
    {next : Value → Checked State Result}
    (first : Confined observe program.run)
    (second : ∀ value, Confined observe (next value).run) :
    Confined observe (program >>= next).run := by
  constructor
  · intro before answer after yields
    rcases yields_run_bind.mp yields with
      ⟨_, ran, _⟩ | ⟨value, middle, ran, later⟩
    · exact first.keeps ran
    · exact ((second value).keeps later).trans (first.keeps ran)
  · intro state
    rw [ExceptT.run_bind, tooDeep_bind]
    rintro (deep | ⟨outcome, middle, _, deep⟩)
    · exact first.flat state deep
    · cases outcome with
      | error code =>
          exact not_tooDeep_pure deep
      | ok value =>
          exact (second value).flat middle deep

protected theorem Confined.runOutcome
    {program : Checked State Value}
    (confined : Confined observe program.run) :
    Confined observe program.outcome.run := by
  constructor
  · intro before answer after yields
    rcases yields_run_outcome.mp yields with ⟨_, ran, _⟩
    exact confined.keeps ran
  · intro state
    unfold Checked.outcome
    rw [ExceptT.run_lift, ← bind_pure_comp, tooDeep_bind]
    rintro (deep | ⟨_, _, _, deep⟩)
    · exact confined.flat state deep
    · exact not_tooDeep_pure deep

protected theorem Confined.runDivisionByZero :
    Confined observe
      (Checked.fault .divisionByZero : Checked State Value).run := by
  constructor
  · intro before answer after yields
    exact absurd yields not_yields_run_fault
  · intro state deep
    change Except.error Abort.divisionByZero = .error _ at deep
    cases deep

protected theorem Confined.result
    {program : Checked State Unit}
    (confined : Confined observe program.run) :
    Confined observe program.result := by
  constructor
  · intro before answer after yields
    rcases yields_result.mp yields with ran | ⟨ran, _⟩ <;>
      exact confined.keeps ran
  · intro state
    unfold Checked.result
    rw [tooDeep_bind]
    rintro (deep | ⟨outcome, middle, _, deep⟩)
    · exact confined.flat state deep
    · cases outcome <;>
        exact not_tooDeep_pure deep

end Confinement

/-- The program returns the value, in a state with the property: total correctness. -/
def Returns
    (program : Program State Value)
    (before : State)
    (value : Value)
    (Post : State → Prop) : Prop :=
  ∃ after, Yields program before value after ∧ Post after

section TotalCorrectness

variable {before : State} {value : Value} {Post : State → Prop}

theorem Returns.mono
    {program : Program State Value}
    {Weaker : State → Prop}
    (returns : Returns program before value Post)
    (weaken : ∀ after, Post after → Weaker after) :
    Returns program before value Weaker := by
  rcases returns with ⟨after, yields, post⟩
  exact ⟨after, yields, weaken after post⟩

/-- What a program returns and leaves behind, it has in every outcome. -/
theorem Returns.of_yields
    {program : Program State Value}
    {answer : Value}
    {after : State}
    (returns : Returns program before value Post)
    (yields : Yields program before answer after) :
    answer = value ∧ Post after := by
  rcases returns with ⟨final, ran, post⟩
  rcases yields.functional ran with ⟨rfl, rfl⟩
  exact ⟨rfl, post⟩

protected theorem Returns.pure
    (post : Post before) :
    Returns (pure value) before value Post :=
  ⟨before, yields_pure.mpr ⟨rfl, rfl⟩, post⟩

protected theorem Returns.bind
    {program : Program State Value}
    {next : Value → Program State Result}
    {Middle : State → Prop}
    {result : Result}
    (first : Returns program before value Middle)
    (second :
      ∀ middle, Middle middle → Returns (next value) middle result Post) :
    Returns (program >>= next) before result Post := by
  rcases first with ⟨middle, ran, reached⟩
  rcases second middle reached with ⟨after, later, post⟩
  exact ⟨after, (yields_bind_of ran).mpr later, post⟩

protected theorem Returns.getBind
    {next : State → Program State Result}
    {result : Result}
    (returns : Returns (next before) before result Post) :
    Returns (get >>= next) before result Post := by
  rcases returns with ⟨after, yields, post⟩
  exact ⟨after, (yields_bind_of (yields_get.mpr ⟨rfl, rfl⟩)).mpr yields, post⟩

protected theorem Returns.setBind
    {state : State}
    {next : PUnit → Program State Result}
    {result : Result}
    (returns : Returns (next ⟨⟩) state result Post) :
    Returns (set state >>= next) before result Post := by
  rcases returns with ⟨after, yields, post⟩
  exact ⟨after, (yields_bind_of (yields_set.mpr rfl)).mpr yields, post⟩

protected theorem Returns.modifyBind
    {change : State → State}
    {next : PUnit → Program State Result}
    {result : Result}
    (returns : Returns (next ⟨⟩) (change before) result Post) :
    Returns (modify change >>= next) before result Post := by
  rcases returns with ⟨after, yields, post⟩
  exact ⟨after, (yields_bind_of (yields_modify.mpr rfl)).mpr yields, post⟩

/-- A program over a part of the state, where the rest does not matter to it. -/
protected theorem Returns.onPart
    {view : State → Part}
    {update : Part → State → State}
    {program : Program Part Value}
    {Reached : Part → Prop}
    (returns : Returns program (view before) value Reached)
    (post : ∀ part, Reached part → Post (update part before)) :
    Returns (onPart view update program) before value Post := by
  rcases returns with ⟨part, ran, reached⟩
  exact ⟨update part before, yields_onPart.mpr ⟨part, ran, rfl⟩,
    post part reached⟩

protected theorem Returns.orAllNil
    (post : Post before) :
    Returns (orAll []) before 0 Post :=
  Returns.pure post

/-- One operation that succeeds, and then the others. -/
protected theorem Returns.orAllCons
    {operation : Program State Int32}
    {rest : List (Program State Int32)}
    {Middle : State → Prop}
    {answer : Int32}
    (first : Returns operation before 0 Middle)
    (later :
      ∀ middle, Middle middle → Returns (orAll rest) middle answer Post) :
    Returns (orAll (operation :: rest)) before answer Post := by
  rcases first with ⟨middle, ran, reached⟩
  rcases later middle reached with ⟨after, ranRest, post⟩
  exact ⟨after,
    yields_orAll_cons.mpr
      ⟨0, middle, answer, ran, ranRest, Int32.zero_or⟩,
    post⟩

protected theorem Returns.runPure
    (post : Post before) :
    Returns (pure value : Checked State Value).run before (.ok value) Post :=
  ⟨before, yields_run_pure.mpr ⟨rfl, rfl⟩, post⟩

protected theorem Returns.runThrow
    {code : Int32}
    (post : Post before) :
    Returns (throw code : Checked State Value).run before (.error code) Post :=
  ⟨before, yields_run_throw.mpr ⟨rfl, rfl⟩, post⟩

protected theorem Returns.runModify
    {change : State → State}
    (post : Post (change before)) :
    Returns (modify change : Checked State PUnit).run before (.ok ⟨⟩) Post :=
  ⟨change before, yields_run_modify.mpr ⟨rfl, rfl⟩, post⟩

protected theorem Returns.runBind
    {program : Checked State Value}
    {next : Value → Checked State Result}
    {Middle : State → Prop}
    {answer : Except Int32 Result}
    (first : Returns program.run before (.ok value) Middle)
    (second :
      ∀ middle, Middle middle → Returns (next value).run middle answer Post) :
    Returns (program >>= next).run before answer Post := by
  rcases first with ⟨middle, ran, reached⟩
  rcases second middle reached with ⟨after, later, post⟩
  exact ⟨after, (yields_run_bind_ok ran).mpr later, post⟩

protected theorem Returns.runLift
    {program : Program State Value}
    (returns : Returns program before value Post) :
    Returns (liftM program : Checked State Value).run before (.ok value)
      Post := by
  rcases returns with ⟨after, yields, post⟩
  exact ⟨after, yields_run_lift.mpr ⟨value, yields, rfl⟩, post⟩

/-- An error of the first part is the error of the whole. -/
protected theorem Returns.runBindError
    {program : Checked State Value}
    {next : Value → Checked State Result}
    {code : Int32}
    (first : Returns program.run before (.error code) Post) :
    Returns (program >>= next).run before (.error code) Post := by
  rcases first with ⟨after, ran, post⟩
  exact ⟨after, yields_run_bind.mpr (Or.inl ⟨code, ran, rfl⟩), post⟩

/-- A function may look at its state. -/
protected theorem Returns.runGetBind
    {next : State → Checked State Result}
    {answer : Except Int32 Result}
    (returns : Returns (next before).run before answer Post) :
    Returns (get >>= next).run before answer Post := by
  rcases returns with ⟨after, yields, post⟩
  exact ⟨after,
    (yields_run_bind_ok (yields_run_get.mpr ⟨rfl, rfl⟩)).mpr yields, post⟩

protected theorem Returns.runOutcome
    {program : Checked State Value}
    {answer : Except Int32 Value}
    (returns : Returns program.run before answer Post) :
    Returns program.outcome.run before (.ok answer) Post := by
  rcases returns with ⟨after, yields, post⟩
  exact ⟨after, yields_run_outcome.mpr ⟨answer, yields, rfl⟩, post⟩

protected theorem Returns.result
    {program : Checked State Unit}
    (returns : Returns program.run before (.ok ()) Post) :
    Returns program.result before 0 Post := by
  rcases returns with ⟨after, yields, post⟩
  exact ⟨after, yields_result.mpr (Or.inr ⟨yields, rfl⟩), post⟩

protected theorem Returns.resultError
    {program : Checked State Unit}
    {code : Int32}
    (returns : Returns program.run before (.error code) Post) :
    Returns program.result before code Post := by
  rcases returns with ⟨after, yields, post⟩
  exact ⟨after, yields_result.mpr (Or.inl yields), post⟩

/-- The program returns, whatever it returns, in a state with the property. -/
def Completes
    (program : Program State Value)
    (before : State)
    (Post : State → Prop) : Prop :=
  ∃ value, Returns program before value Post

theorem Returns.completes
    {program : Program State Value}
    (returns : Returns program before value Post) :
    Completes program before Post :=
  ⟨value, returns⟩

theorem Completes.of_yields
    {program : Program State Value}
    {after : State}
    (completes : Completes program before Post)
    (yields : Yields program before value after) :
    Post after := by
  rcases completes with ⟨_, returns⟩
  exact (returns.of_yields yields).2

protected theorem Completes.pure
    (post : Post before) :
    Completes (pure value) before Post :=
  (Returns.pure post).completes

protected theorem Completes.bind
    {program : Program State Value}
    {next : Value → Program State Result}
    {Middle : State → Prop}
    (first : Completes program before Middle)
    (second :
      ∀ value middle, Middle middle → Completes (next value) middle Post) :
    Completes (program >>= next) before Post := by
  rcases first with ⟨value, middle, ran, reached⟩
  rcases second value middle reached with ⟨result, after, later, post⟩
  exact ⟨result, after, (yields_bind_of ran).mpr later, post⟩

/-- When the outcome of its first part is known, the rest decides. -/
theorem Yields.completesBind
    {program : Program State Value}
    {next : Value → Program State Result}
    {middle : State}
    (ran : Yields program before value middle)
    (second : Completes (next value) middle Post) :
    Completes (program >>= next) before Post := by
  rcases second with ⟨result, after, later, post⟩
  exact ⟨result, after, (yields_bind_of ran).mpr later, post⟩

protected theorem Completes.getBind
    {next : State → Program State Result}
    (completes : Completes (next before) before Post) :
    Completes (get >>= next) before Post := by
  rcases completes with ⟨result, returns⟩
  exact ⟨result, returns.getBind⟩

protected theorem Completes.modifyBind
    {change : State → State}
    {next : PUnit → Program State Result}
    (completes : Completes (next ⟨⟩) (change before) Post) :
    Completes (modify change >>= next) before Post := by
  rcases completes with ⟨result, returns⟩
  exact ⟨result, returns.modifyBind⟩

/-- Operations that all keep the property do so in a row. -/
protected theorem Completes.orAll
    {operations : List (Program State Int32)}
    (each :
      ∀ operation ∈ operations, ∀ state, Post state →
        Completes operation state Post)
    (post : Post before) :
    Completes (orAll operations) before Post := by
  induction operations generalizing before with
  | nil =>
      exact Completes.pure post
  | cons operation rest inductionHypothesis =>
      refine (each operation List.mem_cons_self before post).bind
        fun _ _ post => ?_
      exact (inductionHypothesis
        (fun other member => each other (List.mem_cons_of_mem _ member))
        post).bind fun _ _ post => Completes.pure post

end TotalCorrectness

/-- The program has a result, from every state. -/
def Ends (program : Program State Value) : Prop :=
  ∀ before, ∃ value after, Yields program before value after

section Ending

protected theorem Ends.pure
    (given : Value) :
    Ends (pure given : Program State Value) :=
  fun before => ⟨given, before, yields_pure.mpr ⟨rfl, rfl⟩⟩

protected theorem Ends.bind
    {program : Program State Value}
    {next : Value → Program State Result}
    (first : Ends program)
    (second : ∀ value, Ends (next value)) :
    Ends (program >>= next) := by
  intro before
  rcases first before with ⟨value, middle, ran⟩
  rcases second value middle with ⟨result, after, later⟩
  exact ⟨result, after, (yields_bind_of ran).mpr later⟩

protected theorem Ends.get :
    Ends (get : Program State State) :=
  fun before => ⟨before, before, yields_get.mpr ⟨rfl, rfl⟩⟩

protected theorem Ends.modify
    (change : State → State) :
    Ends (modify change : Program State PUnit) :=
  fun before => ⟨⟨⟩, change before, yields_modify.mpr rfl⟩

protected theorem Ends.ite
    {condition : Prop}
    [Decidable condition]
    {first second : Program State Value}
    (ifTrue : Ends first)
    (ifFalse : Ends second) :
    Ends (if condition then first else second) := by
  split
  · exact ifTrue
  · exact ifFalse

protected theorem Ends.runPure
    (given : Value) :
    Ends (pure given : Checked State Value).run :=
  Ends.pure _

protected theorem Ends.runThrow
    (code : Int32) :
    Ends (throw code : Checked State Value).run :=
  fun before => ⟨.error code, before, yields_run_throw.mpr ⟨rfl, rfl⟩⟩

protected theorem Ends.runGet :
    Ends (get : Checked State State).run :=
  fun before => ⟨.ok before, before, yields_run_get.mpr ⟨rfl, rfl⟩⟩

protected theorem Ends.runModify
    (change : State → State) :
    Ends (modify change : Checked State PUnit).run :=
  fun before => ⟨.ok ⟨⟩, change before, yields_run_modify.mpr ⟨rfl, rfl⟩⟩

protected theorem Ends.runLift
    {program : Program State Value}
    (ends : Ends program) :
    Ends (liftM program : Checked State Value).run := by
  intro before
  rcases ends before with ⟨value, after, ran⟩
  exact ⟨.ok value, after, yields_run_lift.mpr ⟨value, ran, rfl⟩⟩

protected theorem Ends.runBind
    {program : Checked State Value}
    {next : Value → Checked State Result}
    (first : Ends program.run)
    (second : ∀ value, Ends (next value).run) :
    Ends (program >>= next).run := by
  intro before
  rcases first before with ⟨outcome, middle, ran⟩
  cases outcome with
  | error code =>
      exact ⟨.error code, middle, yields_run_bind.mpr (Or.inl ⟨code, ran, rfl⟩)⟩
  | ok value =>
      rcases second value middle with ⟨answer, after, later⟩
      exact ⟨answer, after, (yields_run_bind_ok ran).mpr later⟩

/-- A function that looks at its state first may end from this state only. -/
protected theorem Ends.runGetBind
    {before : State}
    {next : State → Checked State Result}
    (ends : Ends (next before).run) :
    ∃ answer after, Yields (get >>= next).run before answer after := by
  rcases ends before with ⟨answer, after, ran⟩
  exact ⟨answer, after,
    (yields_run_bind_ok (yields_run_get.mpr ⟨rfl, rfl⟩)).mpr ran⟩

end Ending

/-- The processor traps in the program. -/
def Traps
    (program : Program State Value)
    (before : State) : Prop :=
  program.run before = .error .divisionByZero

section Trapping

variable {before : State} {value : Value}

theorem Ends.not_traps
    {program : Program State Value}
    (ends : Ends program)
    (before : State) :
    ¬ Traps program before := by
  intro traps
  rcases ends before with ⟨value, after, ran⟩
  cases ran.symm.trans traps

/-- A program that returns does not trap. -/
theorem Yields.not_traps
    {program : Program State Value}
    {after : State}
    (yields : Yields program before value after) :
    ¬ Traps program before := by
  intro traps
  cases yields.symm.trans traps

theorem traps_run_fault :
    Traps (Checked.fault .divisionByZero : Checked State Value).run before :=
  rfl

/-- When the outcome of its first part is known, a function traps if the rest does. -/
theorem traps_run_bind_ok
    {program : Checked State Value}
    {next : Value → Checked State Result}
    {middle : State}
    (ran : Yields program.run before (.ok value) middle) :
    Traps (program >>= next).run before ↔ Traps (next value).run middle := by
  unfold Yields at ran
  unfold Traps
  rw [ExceptT.run_bind, StateT.run_bind, ran]
  rfl

/-- A function that traps at once does so whatever comes after. -/
theorem Traps.runBind
    {program : Checked State Value}
    {next : Value → Checked State Result}
    (traps : Traps program.run before) :
    Traps (program >>= next).run before := by
  unfold Traps at *
  rw [ExceptT.run_bind, StateT.run_bind, traps]
  rfl

/-- A function may look at its state before it traps. -/
theorem Traps.runGetBind
    {next : State → Checked State Result}
    (traps : Traps (next before).run before) :
    Traps (get >>= next).run before :=
  (traps_run_bind_ok (yields_run_get.mpr ⟨rfl, rfl⟩)).mpr traps

/-- What succeeds may be followed by what traps. -/
theorem Returns.runBind_traps
    {program : Checked State Value}
    {next : Value → Checked State Result}
    {Middle : State → Prop}
    (first : Returns program.run before (.ok value) Middle)
    (second : ∀ middle, Middle middle → Traps (next value).run middle) :
    Traps (program >>= next).run before := by
  rcases first with ⟨middle, ran, reached⟩
  exact (traps_run_bind_ok ran).mpr (second middle reached)

end Trapping

end LibRtlSdr.DriverProgram
