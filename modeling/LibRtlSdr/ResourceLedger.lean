import LibRtlSdr.PartialRun
import Mathlib.Logic.Function.Basic

namespace LibRtlSdr.ResourceLedger

open PartialRun

/-!
# Resources that are acquired, used and released

A program is seen as the sequence of its accesses to resources: blocks of memory,
handles, whatever must be given back.  A resource is acquired while it is not held, and
used or released while it is; anything else has no result, and neither has the use of a
null pointer.  Resources do not disturb each other, so that a sequence can be judged
for each of them alone.
-/

variable {Resource : Type}

/-- What a program does to a resource; a null pointer leads to none. -/
inductive Access (Resource : Type) where
  | acquire (resource : Resource)
  | release (resource : Resource)
  | use (place : Option Resource)
  deriving DecidableEq

/-! ## One resource -/

/-- An access to a resource that is held or not. -/
def single (held : Bool) : Access Resource → Option Bool
  | .acquire _ =>
      if held then none else some true
  | .release _ =>
      if held then some false else none
  | .use (some _) =>
      if held then some true else none
  | .use none =>
      none

@[simp] theorem single_acquire (resource : Resource) :
    single false (.acquire resource) = some true :=
  rfl

@[simp] theorem single_release (resource : Resource) :
    single true (.release resource) = some false :=
  rfl

@[simp] theorem single_use (resource : Resource) :
    single true (.use (some resource)) = some true :=
  rfl

/-- A resource that is held can be used any number of times. -/
theorem run_single_uses
    {accesses : List (Access Resource)}
    (uses : ∀ access ∈ accesses, ∃ resource, access = .use (some resource)) :
    run single true accesses = some true := by
  induction accesses with
  | nil =>
      rfl
  | cons access rest inductionHypothesis =>
      rw [List.forall_mem_cons] at uses
      obtain ⟨resource, rfl⟩ := uses.1
      exact run_cons_of_step (single_use resource) (inductionHypothesis uses.2)

/-! ## All resources -/

section Ledger

variable [DecidableEq Resource]

/-- An access, with the resources that are held. -/
def step (held : Resource → Bool) : Access Resource → Option (Resource → Bool)
  | .acquire resource =>
      if held resource then none else some (Function.update held resource true)
  | .release resource =>
      if held resource then some (Function.update held resource false) else none
  | .use (some resource) =>
      if held resource then some held else none
  | .use none =>
      none

/-- A null pointer is the concern of every resource. -/
def concerns (resource : Resource) : Access Resource → Bool
  | .acquire other =>
      other = resource
  | .release other =>
      other = resource
  | .use (some other) =>
      other = resource
  | .use none =>
      true

/-- The accesses to one resource. -/
def history
    (resource : Resource)
    (accesses : List (Access Resource)) :
    List (Access Resource) :=
  accesses.filter (concerns resource)

@[simp] theorem history_nil (resource : Resource) :
    history resource [] = [] :=
  rfl

theorem history_cons
    (resource : Resource)
    (access : Access Resource)
    (rest : List (Access Resource)) :
    history resource (access :: rest) =
      if concerns resource access then
        access :: history resource rest
      else
        history resource rest :=
  List.filter_cons

theorem history_append
    (resource : Resource)
    (first second : List (Access Resource)) :
    history resource (first ++ second) =
      history resource first ++ history resource second :=
  List.filter_append first second

@[simp] theorem history_acquire (resource other : Resource) :
    history resource [.acquire other] =
      if other = resource then [.acquire other] else [] := by
  simp [history, concerns, List.filter_cons]

@[simp] theorem history_release (resource other : Resource) :
    history resource [.release other] =
      if other = resource then [.release other] else [] := by
  simp [history, concerns, List.filter_cons]

@[simp] theorem history_use (resource other : Resource) :
    history resource [.use (some other)] =
      if other = resource then [.use (some other)] else [] := by
  simp [history, concerns, List.filter_cons]

/-- An access seen from one resource: it happens to it, or leaves it alone. -/
theorem step_single
    {held next : Resource → Bool}
    {access : Access Resource}
    (taken : step held access = some next)
    (resource : Resource) :
    if concerns resource access then
      single (held resource) access = some (next resource)
    else
      next resource = held resource := by
  rcases access with other | other | (_ | other)
  · by_cases same : other = resource
    · subst same
      simp only [step] at taken
      split_ifs at taken with already
      cases taken
      simp [concerns, single, already]
    · simp only [step] at taken
      split_ifs at taken
      cases taken
      simp [concerns, same, Function.update_of_ne (Ne.symm same)]
  · by_cases same : other = resource
    · subst same
      simp only [step] at taken
      split_ifs at taken with already
      cases taken
      simp [concerns, single, already]
    · simp only [step] at taken
      split_ifs at taken
      cases taken
      simp [concerns, same, Function.update_of_ne (Ne.symm same)]
  · cases taken
  · simp only [step] at taken
    split_ifs at taken with already
    cases taken
    by_cases same : other = resource
    · subst same
      simp [concerns, single, already]
    · simp [concerns, same]

/-- An access that each resource allows for itself is allowed. -/
theorem exists_step
    [Nonempty Resource]
    {held : Resource → Bool}
    {access : Access Resource}
    (allowed :
      ∀ resource,
        concerns resource access = true → (single (held resource) access).isSome) :
    ∃ next, step held access = some next := by
  rcases access with other | other | (_ | other)
  · have own := allowed other (by simp [concerns])
    rcases already : held other with _ | _
    · exact ⟨Function.update held other true, by simp [step, already]⟩
    · simp [single, already] at own
  · have own := allowed other (by simp [concerns])
    rcases already : held other with _ | _
    · simp [single, already] at own
    · exact ⟨Function.update held other false, by simp [step, already]⟩
  · obtain ⟨resource⟩ := ‹Nonempty Resource›
    have own := allowed resource rfl
    simp [single] at own
  · have own := allowed other (by simp [concerns])
    rcases already : held other with _ | _
    · simp [single, already] at own
    · exact ⟨held, by simp [step, already]⟩

/-- A sequence of accesses goes through exactly when it does for each resource alone. -/
theorem run_eq_some_iff
    [Nonempty Resource]
    {held after : Resource → Bool}
    {accesses : List (Access Resource)} :
    run step held accesses = some after ↔
      ∀ resource,
        run single (held resource) (history resource accesses) = some (after resource) := by
  induction accesses generalizing held with
  | nil =>
      rw [run_nil, Option.some.injEq]
      constructor
      · rintro rfl resource
        rfl
      · intro same
        funext resource
        exact Option.some.inj (same resource)
  | cons access rest inductionHypothesis =>
      constructor
      · intro reached resource
        rw [run_cons, Option.bind_eq_some_iff] at reached
        obtain ⟨next, taken, reachedRest⟩ := reached
        have seen := step_single taken resource
        have others := inductionHypothesis.mp reachedRest resource
        rw [history_cons]
        split_ifs at seen ⊢ with concern
        · exact run_cons_of_step seen others
        · rw [← seen]
          exact others
      · intro each
        have allowed :
            ∀ resource,
              concerns resource access = true →
                (single (held resource) access).isSome := by
          intro resource concern
          have own := each resource
          rw [history_cons, if_pos concern, run_cons, Option.bind_eq_some_iff] at own
          obtain ⟨next, taken, _⟩ := own
          rw [taken]
          rfl
        obtain ⟨next, taken⟩ := exists_step allowed
        refine run_cons_of_step taken (inductionHypothesis.mpr ?_)
        intro resource
        have seen := step_single taken resource
        have own := each resource
        rw [history_cons] at own
        split_ifs at seen own with concern
        · rw [run_cons, seen, Option.bind_some] at own
          exact own
        · rw [seen]
          exact own

/-- What is held can be used. -/
theorem run_uses
    {held : Resource → Bool}
    {accesses : List (Access Resource)}
    (uses :
      ∀ access ∈ accesses,
        ∃ resource, access = .use (some resource) ∧ held resource = true) :
    run step held accesses = some held := by
  induction accesses with
  | nil =>
      rfl
  | cons access rest inductionHypothesis =>
      rw [List.forall_mem_cons] at uses
      obtain ⟨resource, rfl, isHeld⟩ := uses.1
      have used : step held (.use (some resource)) = some held := by
        rw [step, if_pos isHeld]
      exact run_cons_of_step used (inductionHypothesis uses.2)

/-- Nothing goes on behind the use of a null pointer. -/
theorem run_of_null
    {held : Resource → Bool}
    {accesses : List (Access Resource)}
    (null : Access.use none ∈ accesses) :
    run step held accesses = none := by
  obtain ⟨first, second, rfl⟩ := List.append_of_mem null
  rw [run_append]
  rcases run step held first with _ | middle
  · rfl
  · rw [Option.bind_some, run_cons]
    rfl

/-! ## Loops over numbered resources -/

/-- Of a loop whose passes concern one resource each, one pass remains. -/
theorem history_flatMap_range
    {resource : Resource}
    {pass : Nat → List (Access Resource)}
    {own : Nat}
    (others : ∀ index, index ≠ own → history resource (pass index) = [])
    (count : Nat) :
    history resource ((List.range count).flatMap pass) =
      if own < count then history resource (pass own) else [] := by
  induction count with
  | zero =>
      rfl
  | succ count inductionHypothesis =>
      rw [List.range_succ, List.flatMap_append, history_append, inductionHypothesis,
        List.flatMap_singleton]
      rcases Nat.lt_trichotomy own count with before | rfl | behind
      · rw [if_pos before, if_pos (by omega), others count (by omega), List.append_nil]
      · rw [if_neg (Nat.lt_irrefl own), if_pos (Nat.lt_succ_self own), List.nil_append]
      · rw [if_neg (by omega), if_neg (by omega), others count (by omega),
          List.append_nil]

/-- A loop of which every pass only uses what is held. -/
theorem history_uses
    {Index : Type}
    {resource : Resource}
    {pass : Index → List (Access Resource)}
    {indices : List Index}
    (uses :
      ∀ index ∈ indices, ∀ access ∈ history resource (pass index),
        ∃ other, access = .use (some other)) :
    run single true (history resource (indices.flatMap pass)) = some true := by
  apply run_single_uses
  intro access member
  rw [history, List.mem_filter, List.mem_flatMap] at member
  obtain ⟨⟨index, inRange, inPass⟩, concern⟩ := member
  exact uses index inRange access (List.mem_filter.mpr ⟨inPass, concern⟩)

/-- Of a loop that does not concern it a resource sees nothing. -/
theorem history_flatMap_eq_nil
    {Index : Type}
    {resource : Resource}
    {pass : Index → List (Access Resource)}
    {indices : List Index}
    (others : ∀ index ∈ indices, history resource (pass index) = []) :
    history resource (indices.flatMap pass) = [] := by
  induction indices with
  | nil =>
      rfl
  | cons index rest inductionHypothesis =>
      rw [List.forall_mem_cons] at others
      rw [List.flatMap_cons, history_append, others.1, inductionHypothesis others.2]
      rfl

end Ledger

end LibRtlSdr.ResourceLedger
