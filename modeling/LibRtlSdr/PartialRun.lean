import Mathlib.Data.List.Induction

namespace LibRtlSdr.PartialRun

/-!
# Runs of partial step functions

A system is a step function `State → Action → Option State`.  An action that
is not enabled, or that would leave the memory a program owns, has no result.
This module folds such a step function over a list of actions and packages the
inductions that the systems of this development share: invariants of a run,
invariants that also see the actions taken so far, and invariants that hold as
long as every step meets a side condition.
-/

variable {State Action : Type}

/-- Take the actions in order; one disabled action ends the run without a state. -/
def run
    (step : State → Action → Option State) :
    State → List Action → Option State
  | state, [] =>
      some state
  | state, action :: rest =>
      match step state action with
      | none =>
          none
      | some next =>
          run step next rest

variable {step : State → Action → Option State}

@[simp] theorem run_nil (state : State) :
    run step state [] = some state :=
  rfl

/-- A nonempty run takes its first action and runs on from there. -/
theorem run_cons
    (state : State)
    (action : Action)
    (rest : List Action) :
    run step state (action :: rest) =
      (step state action).bind (fun next => run step next rest) := by
  rw [run]
  cases step state action <;> rfl

/-- A run can be put together from its first step and the rest. -/
theorem run_cons_of_step
    {state next final : State}
    {action : Action}
    {rest : List Action}
    (taken : step state action = some next)
    (reached : run step next rest = some final) :
    run step state (action :: rest) = some final := by
  rw [run_cons, taken]
  exact reached

/-- Running two action lists one after the other is running their concatenation. -/
theorem run_append
    (state : State)
    (first second : List Action) :
    run step state (first ++ second) =
      (run step state first).bind (fun middle => run step middle second) := by
  induction first generalizing state with
  | nil =>
      rfl
  | cons action rest inductionHypothesis =>
      rw [List.cons_append, run_cons, run_cons]
      cases step state action with
      | none =>
          rfl
      | some next =>
          exact inductionHypothesis next

/-- The last action of a run is one step from the state the others reach. -/
theorem run_concat
    (state : State)
    (actions : List Action)
    (action : Action) :
    run step state (actions ++ [action]) =
      (run step state actions).bind (fun middle => step middle action) := by
  rw [run_append]
  congr 1
  funext middle
  rw [run_cons]
  cases step middle action <;> rfl

/-- Invert a run that ends with a known action. -/
theorem run_concat_eq_some
    {state final : State}
    {actions : List Action}
    {action : Action} :
    run step state (actions ++ [action]) = some final ↔
      ∃ middle,
        run step state actions = some middle ∧
          step middle action = some final := by
  rw [run_concat, Option.bind_eq_some_iff]

/-- Every prefix of a run reaches a state from which the run continues. -/
theorem run_append_eq_some
    {state final : State}
    {first second : List Action} :
    run step state (first ++ second) = some final ↔
      ∃ middle,
        run step state first = some middle ∧
          run step middle second = some final := by
  rw [run_append, Option.bind_eq_some_iff]

/-- Where a view of each step is a step of another system, so is that of each run. -/
theorem run_map
    {View : Type}
    {view : State → View}
    {viewStep : View → Action → Option View}
    (simulates :
      ∀ state action, (step state action).map view = viewStep (view state) action)
    (state : State)
    (actions : List Action) :
    (run step state actions).map view = run viewStep (view state) actions := by
  induction actions generalizing state with
  | nil =>
      rfl
  | cons action rest inductionHypothesis =>
      rw [run_cons, run_cons, ← simulates]
      cases step state action with
      | none =>
          rfl
      | some next =>
          exact inductionHypothesis next

/--
Invariant rule with a history: what holds initially, and is preserved by each
step with the action added to the actions taken so far, holds after every run.
-/
theorem invariant_history
    (Invariant : List Action → State → Prop)
    {initial : State}
    (initially : Invariant [] initial)
    (preserved :
      ∀ {history state action next},
        Invariant history state →
        step state action = some next →
        Invariant (history ++ [action]) next)
    {actions : List Action}
    {final : State}
    (reached : run step initial actions = some final) :
    Invariant actions final := by
  induction actions using List.reverseRecOn generalizing final with
  | nil =>
      cases reached
      exact initially
  | append_singleton earlier action inductionHypothesis =>
      obtain ⟨middle, reachedMiddle, lastStep⟩ :=
        run_concat_eq_some.mp reached
      exact preserved (inductionHypothesis reachedMiddle) lastStep

/-- Invariant rule: what every step preserves holds after every run. -/
theorem invariant
    (Invariant : State → Prop)
    (preserved :
      ∀ {state action next},
        Invariant state →
        step state action = some next →
        Invariant next)
    {initial : State}
    (initially : Invariant initial)
    {actions : List Action}
    {final : State}
    (reached : run step initial actions = some final) :
    Invariant final :=
  invariant_history (fun _ state => Invariant state)
    initially preserved reached

/-- Every state that a run passes through, its two ends included, satisfies `Holds`. -/
def EveryState
    (step : State → Action → Option State)
    (Holds : State → Prop)
    (initial : State)
    (actions : List Action) : Prop :=
  ∀ earlier later state,
    actions = earlier ++ later →
    run step initial earlier = some state →
    Holds state

/-- Every step that a run takes meets `Meets` in the state before it. -/
def EveryStep
    (step : State → Action → Option State)
    (Meets : State → Action → Prop)
    (initial : State)
    (actions : List Action) : Prop :=
  ∀ earlier action later state next,
    actions = earlier ++ action :: later →
    run step initial earlier = some state →
    step state action = some next →
    Meets state action

/-- A property of all states along a run holds along each of its prefixes. -/
theorem EveryState.of_append
    {Holds : State → Prop}
    {initial : State}
    {first second : List Action}
    (everyState : EveryState step Holds initial (first ++ second)) :
    EveryState step Holds initial first := by
  intro earlier later state split reached
  exact everyState earlier (later ++ second) state
    (by rw [split, List.append_assoc]) reached

/-- Every step of a run starts in a state of the run. -/
theorem EveryState.everyStep
    {Holds : State → Prop}
    {initial : State}
    {actions : List Action}
    (everyState : EveryState step Holds initial actions) :
    EveryStep step (fun state _ => Holds state) initial actions := by
  intro earlier action later state next split reached _
  exact everyState earlier (action :: later) state split reached

/-- A side condition met along a run is met along each of its prefixes. -/
theorem EveryStep.of_append
    {Meets : State → Action → Prop}
    {initial : State}
    {first second : List Action}
    (everyStep : EveryStep step Meets initial (first ++ second)) :
    EveryStep step Meets initial first := by
  intro earlier action later state next split reached taken
  exact everyStep earlier action (later ++ second) state next
    (by rw [split]; simp) reached taken

/-- A run without steps meets every side condition. -/
theorem EveryStep.nil
    {Meets : State → Action → Prop}
    (initial : State) :
    EveryStep step Meets initial [] := by
  intro earlier action later _ _ split _ _
  exact absurd split.symm (by simp)

/-- A run meets a side condition when its first step and the rest do. -/
theorem EveryStep.cons
    {Meets : State → Action → Prop}
    {initial next : State}
    {action : Action}
    {rest : List Action}
    (taken : step initial action = some next)
    (meets : Meets initial action)
    (everyStep : EveryStep step Meets next rest) :
    EveryStep step Meets initial (action :: rest) := by
  intro earlier last later state after split reached lastTaken
  cases earlier with
  | nil =>
      obtain ⟨sameAction, _⟩ := List.cons.inj split
      rw [run_nil, Option.some.injEq] at reached
      rw [← sameAction, ← reached]
      exact meets
  | cons first between =>
      obtain ⟨sameFirst, restSplit⟩ := List.cons.inj split
      rw [← sameFirst, run_cons, taken] at reached
      exact everyStep between last later state after restSplit reached
        lastTaken

/-- The steps of a run after a prefix of it meet the side condition. -/
theorem EveryStep.after
    {Meets : State → Action → Prop}
    {initial middle : State}
    {first second : List Action}
    (everyStep : EveryStep step Meets initial (first ++ second))
    (reached : run step initial first = some middle) :
    EveryStep step Meets middle second := by
  intro earlier action later state next split reachedState taken
  exact everyStep (first ++ earlier) action later state next
    (by rw [split, List.append_assoc])
    (run_append_eq_some.mpr ⟨middle, reached, reachedState⟩) taken

/-- Two runs, the second where the first ends, meet a side condition together. -/
theorem EveryStep.append
    {Meets : State → Action → Prop}
    {initial middle : State}
    {first second : List Action}
    (everyFirst : EveryStep step Meets initial first)
    (reached : run step initial first = some middle)
    (everySecond : EveryStep step Meets middle second) :
    EveryStep step Meets initial (first ++ second) := by
  intro earlier action later state next split reachedState taken
  rcases List.append_eq_append_iff.mp split with
    ⟨between, isEarlier, isSecond⟩ | ⟨between, isFirst, isRest⟩
  · rw [isEarlier] at reachedState
    obtain ⟨same, reachedSame, reachedBetween⟩ := run_append_eq_some.mp reachedState
    obtain rfl := Option.some.inj (reached.symm.trans reachedSame)
    exact everySecond between action later state next isSecond reachedBetween taken
  · cases between with
    | nil =>
        rw [List.append_nil] at isFirst
        rw [← isFirst, reached, Option.some.injEq] at reachedState
        rw [← reachedState] at taken ⊢
        exact everySecond [] action later middle next isRest.symm rfl taken
    | cons found rest =>
        obtain ⟨rfl, _⟩ := List.cons.inj isRest
        exact everyFirst earlier action rest state next isFirst reachedState taken

/-- The steps of a run after its first one meet the side condition. -/
theorem EveryStep.tail
    {Meets : State → Action → Prop}
    {initial next : State}
    {action : Action}
    {rest : List Action}
    (everyStep : EveryStep step Meets initial (action :: rest))
    (taken : step initial action = some next) :
    EveryStep step Meets next rest := by
  have reached : run step initial [action] = some next :=
    run_cons_of_step taken (run_nil next)
  exact @EveryStep.after _ _ _ _ _ _ [action] rest everyStep reached

/-- A run whose first action is disabled takes no step. -/
theorem EveryStep.of_disabled
    {Meets : State → Action → Prop}
    {initial : State}
    {action : Action}
    {rest : List Action}
    (disabled : step initial action = none) :
    EveryStep step Meets initial (action :: rest) := by
  intro earlier last later state next split reached taken
  cases earlier with
  | nil =>
      obtain ⟨sameAction, _⟩ := List.cons.inj split
      rw [run_nil, Option.some.injEq] at reached
      rw [← reached, ← sameAction, disabled] at taken
      contradiction
  | cons first between =>
      obtain ⟨sameFirst, _⟩ := List.cons.inj split
      rw [← sameFirst, run_cons, disabled] at reached
      contradiction

/-- Whether a run meets a decidable side condition can be computed. -/
instance EveryStep.decidable
    {Meets : State → Action → Prop}
    [∀ state action, Decidable (Meets state action)] :
    (initial : State) →
    (actions : List Action) →
    Decidable (EveryStep step Meets initial actions)
  | initial, [] =>
      .isTrue (.nil initial)
  | initial, action :: rest =>
      match taken : step initial action with
      | none =>
          .isTrue (EveryStep.of_disabled taken)
      | some next =>
          if meets : Meets initial action then
            match EveryStep.decidable next rest with
            | .isTrue everyStep => .isTrue (everyStep.cons taken meets)
            | .isFalse fails => .isFalse (fun everyStep => fails (everyStep.tail taken))
          else
            .isFalse (fun everyStep =>
              meets (everyStep [] action rest initial next rfl rfl taken))

/--
Guarded invariant rule: when the steps of a run meet `Meets`, and such steps
preserve the invariant, the invariant holds in the state the run reaches.
-/
theorem invariant_of_everyStep
    (Invariant : State → Prop)
    {Meets : State → Action → Prop}
    (preserved :
      ∀ {state action next},
        Invariant state →
        Meets state action →
        step state action = some next →
        Invariant next)
    {initial : State}
    (initially : Invariant initial)
    {actions : List Action}
    (everyStep : EveryStep step Meets initial actions)
    {final : State}
    (reached : run step initial actions = some final) :
    Invariant final := by
  induction actions using List.reverseRecOn generalizing final with
  | nil =>
      cases reached
      exact initially
  | append_singleton earlier action inductionHypothesis =>
      obtain ⟨middle, reachedMiddle, lastStep⟩ :=
        run_concat_eq_some.mp reached
      exact preserved
        (inductionHypothesis everyStep.of_append reachedMiddle)
        (everyStep earlier action [] middle final rfl
          reachedMiddle lastStep)
        lastStep

/--
Exact guard rule: if a step keeps the property exactly when it meets the side
condition, then a run keeps it in every state exactly when all its steps meet
the condition.
-/
theorem everyState_iff_everyStep
    {Invariant : State → Prop}
    (preserved :
      ∀ {state action next},
        Invariant state →
        step state action = some next →
        Invariant next)
    {Holds : State → Prop}
    {Meets : State → Action → Prop}
    (exact :
      ∀ {state action next},
        Invariant state →
        Holds state →
        step state action = some next →
        (Holds next ↔ Meets state action))
    {initial : State}
    (initially : Invariant initial)
    (holdsInitially : Holds initial)
    (actions : List Action) :
    EveryState step Holds initial actions ↔
      EveryStep step Meets initial actions := by
  have invariantAt :
      ∀ {earlier : List Action} {state : State},
        run step initial earlier = some state → Invariant state :=
    fun reached => invariant Invariant preserved initially reached
  constructor
  · intro everyState earlier action later state next split reached taken
    have before : Holds state :=
      everyState earlier (action :: later) state split reached
    have after : Holds next :=
      everyState (earlier ++ [action]) later next
        (by rw [split]; simp)
        (run_concat_eq_some.mpr ⟨state, reached, taken⟩)
    exact (exact (invariantAt reached) before taken).mp after
  · intro everyStep earlier later state split reached
    subst split
    have both : Invariant state ∧ Holds state :=
      invariant_of_everyStep
        (fun state => Invariant state ∧ Holds state)
        (fun before meets taken =>
          ⟨preserved before.1 taken,
            (exact before.1 before.2 taken).mpr meets⟩)
        ⟨initially, holdsInitially⟩
        everyStep.of_append
        reached
    exact both.2

/--
Exact definedness rule: if under an invariant a step has a result exactly when it meets
the side condition, then a run has one exactly when no action that it gets to misses it.
-/
theorem run_isSome_iff
    {Invariant : State → Prop}
    (preserved :
      ∀ {state action next},
        Invariant state →
        step state action = some next →
        Invariant next)
    {Meets : State → Action → Prop}
    (defined :
      ∀ {state action},
        Invariant state →
        ((step state action).isSome ↔ Meets state action))
    {initial : State}
    (initially : Invariant initial)
    (actions : List Action) :
    (run step initial actions).isSome ↔
      ∀ earlier action later state,
        actions = earlier ++ action :: later →
        run step initial earlier = some state →
        Meets state action := by
  constructor
  · intro isSome earlier action later state split reached
    rw [split, run_append, reached, Option.bind_some, run_cons] at isSome
    refine (defined (invariant Invariant preserved initially reached)).mp ?_
    cases taken : step state action with
    | none =>
        rw [taken] at isSome
        cases isSome
    | some next =>
        rfl
  · intro meets
    induction actions using List.reverseRecOn with
    | nil =>
        rfl
    | append_singleton earlier action inductionHypothesis =>
        have isSome :=
          inductionHypothesis
            (fun first found later state split reached =>
              meets first found (later ++ [action]) state
                (by rw [split]; simp) reached)
        obtain ⟨state, reached⟩ := Option.isSome_iff_exists.mp isSome
        rw [run_concat, reached, Option.bind_some]
        exact
          (defined (invariant Invariant preserved initially reached)).mpr
            (meets earlier action [] state rfl reached)

/-- Some step of a run, with the actions before it, meets the condition. -/
def SomeStep
    (step : State → Action → Option State)
    (Meets : List Action → State → Action → Prop)
    (initial : State)
    (actions : List Action) : Prop :=
  ∃ earlier action later state next,
    actions = earlier ++ action :: later ∧
      run step initial earlier = some state ∧
      step state action = some next ∧
      Meets earlier state action

theorem not_someStep_nil
    (Meets : List Action → State → Action → Prop)
    (initial : State) :
    ¬ SomeStep step Meets initial [] := by
  rintro ⟨earlier, action, later, _, _, split, _⟩
  exact absurd split.symm (by simp)

/-- One action more adds one step to those of the run. -/
theorem someStep_concat_iff
    {Meets : List Action → State → Action → Prop}
    {initial state next : State}
    {actions : List Action}
    {action : Action}
    (reached : run step initial actions = some state)
    (taken : step state action = some next) :
    SomeStep step Meets initial (actions ++ [action]) ↔
      SomeStep step Meets initial actions ∨ Meets actions state action := by
  constructor
  · rintro ⟨earlier, found, later, before, after, split, reachedBefore,
      takenFound, meets⟩
    rcases List.eq_nil_or_concat later with isEmpty | ⟨between, last, isConcat⟩
    · rw [isEmpty] at split
      obtain ⟨sameEarlier, sameFound⟩ :=
        List.append_inj' split rfl
      rw [← sameEarlier, reached, Option.some.injEq] at reachedBefore
      rw [← (List.cons.inj sameFound).1, ← sameEarlier,
        ← reachedBefore] at meets
      exact .inr meets
    · rw [isConcat, List.concat_eq_append, ← List.cons_append,
        ← List.append_assoc] at split
      exact .inl ⟨earlier, found, between, before, after,
        List.append_inj_left' split rfl, reachedBefore, takenFound, meets⟩
  · rintro (⟨earlier, found, later, before, after, split, reachedBefore,
      takenFound, meets⟩ | meets)
    · refine ⟨earlier, found, later ++ [action], before, after, ?_,
        reachedBefore, takenFound, meets⟩
      rw [split, List.append_assoc, List.cons_append]
    · exact ⟨actions, action, [], state, next, rfl, reached, taken, meets⟩

/-- A run without actions stays in its first state. -/
theorem EveryState.nil
    {Holds : State → Prop}
    {initial : State}
    (holds : Holds initial) :
    EveryState step Holds initial [] := by
  intro earlier later state split reached
  have isEmpty : earlier = [] :=
    (List.append_eq_nil_iff.mp split.symm).1
  rw [isEmpty, run_nil, Option.some.injEq] at reached
  rw [← reached]
  exact holds

/-- A run of one action more passes through one state more. -/
theorem EveryState.concat
    {Holds : State → Prop}
    {initial final : State}
    {actions : List Action}
    {action : Action}
    (everyState : EveryState step Holds initial actions)
    (reached : run step initial (actions ++ [action]) = some final)
    (holdsFinally : Holds final) :
    EveryState step Holds initial (actions ++ [action]) := by
  intro earlier later state split reachedState
  rcases List.eq_nil_or_concat later with isEmpty | ⟨before, last, isConcat⟩
  · rw [isEmpty, List.append_nil] at split
    rw [← split, reached, Option.some.injEq] at reachedState
    rw [← reachedState]
    exact holdsFinally
  · rw [isConcat, List.concat_eq_append, ← List.append_assoc] at split
    exact everyState earlier before state
      (List.append_inj_left' split rfl) reachedState

/--
What a state shows was either there from the start of the run, or came with the
last step that changed it.
-/
theorem exists_last_change
    {Value : Type}
    (observe : State → Value)
    {initial : State}
    {actions : List Action}
    {final : State}
    (reached : run step initial actions = some final) :
    EveryState step (fun state => observe state = observe final)
        initial actions ∨
      ∃ earlier action later before after,
        actions = earlier ++ action :: later ∧
          run step initial earlier = some before ∧
          step before action = some after ∧
          observe before ≠ observe after ∧
          run step after later = some final ∧
          EveryState step (fun state => observe state = observe final)
            after later := by
  induction actions using List.reverseRecOn generalizing final with
  | nil =>
      cases reached
      exact .inl (EveryState.nil rfl)
  | append_singleton earlier action inductionHypothesis =>
      obtain ⟨middle, reachedMiddle, lastStep⟩ :=
        run_concat_eq_some.mp reached
      by_cases changed : observe middle = observe final
      · rw [← changed]
        rcases inductionHypothesis reachedMiddle with
          fromStart | ⟨before, change, since, start, next, split,
            reachedStart, changeStep, differs, reachedSince, kept⟩
        · exact .inl (fromStart.concat reached changed.symm)
        · have reachedFinal : run step next (since ++ [action]) = some final :=
            run_concat_eq_some.mpr ⟨middle, reachedSince, lastStep⟩
          refine .inr ⟨before, change, since ++ [action], start, next, ?_,
            reachedStart, changeStep, differs, reachedFinal,
            kept.concat reachedFinal changed.symm⟩
          rw [split, List.append_assoc, List.cons_append]
      · exact .inr ⟨earlier, action, [], middle, final, rfl,
          reachedMiddle, lastStep, changed, rfl, EveryState.nil rfl⟩

/-- An action that was taken was taken a last time. -/
theorem exists_last_action
    {action : Action}
    {actions : List Action}
    (member : action ∈ actions) :
    ∃ earlier later,
      actions = earlier ++ action :: later ∧ action ∉ later := by
  obtain ⟨before, after, split, notBefore⟩ :=
    List.eq_append_cons_of_mem (List.mem_reverse.mpr member)
  refine ⟨after.reverse, before.reverse, ?_, ?_⟩
  · simpa using congrArg List.reverse split
  · simpa using notBefore

/-- Some actions that are allowed lead to a state that `Ended` describes. -/
def CanReach
    (step : State → Action → Option State)
    (Allowed : Action → Prop)
    (Ended : State → Prop)
    (state : State) : Prop :=
  ∃ later final,
    (∀ action ∈ later, Allowed action) ∧ run step state later = some final ∧ Ended final

theorem CanReach.here
    {Allowed : Action → Prop}
    {Ended : State → Prop}
    {state : State}
    (ended : Ended state) :
    CanReach step Allowed Ended state :=
  ⟨[], state, by simp, rfl, ended⟩

theorem CanReach.of_step
    {Allowed : Action → Prop}
    {Ended : State → Prop}
    {state next : State}
    {action : Action}
    (canReach : CanReach step Allowed Ended next)
    (allowed : Allowed action)
    (taken : step state action = some next) :
    CanReach step Allowed Ended state := by
  obtain ⟨later, final, allowedLater, reached, ended⟩ := canReach
  exact ⟨action :: later, final, List.forall_mem_cons.mpr ⟨allowed, allowedLater⟩,
    run_cons_of_step taken reached, ended⟩

/-- From there on, to somewhere else. -/
theorem CanReach.trans
    {Allowed : Action → Prop}
    {Between Ended : State → Prop}
    {state : State}
    (canReach : CanReach step Allowed Between state)
    (further : ∀ between, Between between → CanReach step Allowed Ended between) :
    CanReach step Allowed Ended state := by
  obtain ⟨first, middle, allowedFirst, reachedMiddle, between⟩ := canReach
  obtain ⟨second, final, allowedSecond, reached, ended⟩ := further middle between
  exact ⟨first ++ second, final, List.forall_mem_append.mpr ⟨allowedFirst, allowedSecond⟩,
    run_append_eq_some.mpr ⟨middle, reachedMiddle, reached⟩, ended⟩

/-- What every allowed step keeps, and no end has, leads to no end. -/
theorem not_canReach
    {Allowed : Action → Prop}
    {Stuck Ended : State → Prop}
    (preserved :
      ∀ {state action next},
        Stuck state → Allowed action → step state action = some next → Stuck next)
    (unended : ∀ {state}, Stuck state → ¬ Ended state)
    {state : State}
    (stuck : Stuck state) :
    ¬ CanReach step Allowed Ended state := by
  rintro ⟨later, final, allowed, reached, ended⟩
  induction later generalizing state with
  | nil =>
      cases reached
      exact unended stuck ended
  | cons action rest inductionHypothesis =>
      rw [List.forall_mem_cons] at allowed
      rw [run_cons, Option.bind_eq_some_iff] at reached
      obtain ⟨next, taken, reachedRest⟩ := reached
      exact inductionHypothesis (preserved stuck allowed.1 taken) allowed.2 reachedRest

end LibRtlSdr.PartialRun
