import LibRtlSdr.RtlTcpStreamOrder

namespace LibRtlSdr.RtlTcp

open LinkedCells PartialRun

/-!
# The length of the shared list

The callback drops the oldest buffer when the number of links to the last one is
two more than the limit, which is when the list holds three buffers more.  The
links grow one by one and fall to none, so the equality is not jumped over: the list
holds what was linked since the worker last took it, up to three above the limit.
-/

namespace Server

/-- The shared list holds this many buffers. -/
def Lists (server : Server) (count : Nat) : Prop :=
  ∃ items, Chain server.heap server.llBuffers items ∧ items.length = count

/-- The shared list holds no more buffers than it should keep. -/
def WithinLimit (server : Server) : Prop :=
  ∃ count, server.Lists count ∧ (count : Int) ≤ server.llbufNum

/-- The callback drops a buffer only if with the new one the list would be too long. -/
def DropsWhenFull (server : Server) (action : Action) : Prop :=
  ∀ next,
    action = .enqueue →
    server.step action = some next →
    next.removed ≠ server.removed →
      ∃ count, server.Lists count ∧ server.llbufNum < (count : Int) + 1

/-- The buffers that were linked since the worker last took the list. -/
def linkedSinceTaken (actions : List Action) : Nat :=
  actions.foldl
    (fun count action =>
      match action with
      | .enqueue => count + 1
      | .wake => 0
      | _ => count)
    0

/-- A pointer leads to one list. -/
theorem Lists.functional
    {server : Server}
    {count other : Nat}
    (lists : server.Lists count)
    (listsOther : server.Lists other) :
    count = other := by
  obtain ⟨items, chain, rfl⟩ := lists
  obtain ⟨others, chainOther, rfl⟩ := listsOther
  rw [chain.functional chainOther]

theorem withinLimit_iff
    {server : Server}
    {count : Nat}
    (lists : server.Lists count) :
    server.WithinLimit ↔ (count : Int) ≤ server.llbufNum := by
  constructor
  · rintro ⟨other, listsOther, within⟩
    rwa [lists.functional listsOther]
  · intro within
    exact ⟨count, lists, within⟩

@[simp] theorem link_llbufNum (server : Server) (cur rpt numQueued : Nat) :
    (server.link cur rpt numQueued).llbufNum = server.llbufNum := by
  rw [link]
  split <;> rfl

@[simp] theorem dropHead_llbufNum (server : Server) (head : Nat) :
    (server.dropHead head).llbufNum = server.llbufNum := by
  rw [dropHead]
  split <;> rfl

@[simp] theorem afterSend_llbufNum
    (server : Server)
    (curelem : Nat)
    (bytesleft index bytessent : Int) :
    (server.afterSend curelem bytesleft index bytessent).llbufNum =
      server.llbufNum := by
  rw [afterSend]
  split <;> rfl

@[simp] theorem append_llbufNum (server : Server) (rpt : Nat) :
    (server.append rpt).llbufNum = server.llbufNum := by
  rw [append]
  split
  · rfl
  · split
    · rfl
    · split <;>
        simp

@[simp] theorem send_llbufNum
    (server : Server)
    (curelem : Nat)
    (bytesleft index : Int)
    (count : Nat) :
    (server.send curelem bytesleft index count).llbufNum = server.llbufNum := by
  rw [send]
  split
  · rfl
  · split
    · rw [afterSend_llbufNum]
    · rfl

/-- No step changes the limit. -/
theorem step_llbufNum
    {server next : Server}
    {action : Action}
    (taken : server.step action = some next) :
    next.llbufNum = server.llbufNum := by
  cases step_cases taken with
  | enqueue =>
      rw [enqueue]
      split
      · rfl
      · exact append_llbufNum server _
  | fetch =>
      rw [fetch]
      split <;> rfl
  | selectTimeout =>
      rw [afterSend_llbufNum]
  | send =>
      rw [send_llbufNum]
  | sendFailed =>
      rw [afterSend_llbufNum]
  | release =>
      rw [release]
      split <;> rfl
  | _ =>
      rfl

/-! ## The count along a run -/

section Counting

variable {llbufNum : Int}

/-- One action more. -/
theorem linkedSinceTaken_concat
    (actions : List Action)
    (action : Action) :
    linkedSinceTaken (actions ++ [action]) =
      match action with
      | .enqueue => linkedSinceTaken actions + 1
      | .wake => 0
      | _ => linkedSinceTaken actions := by
  unfold linkedSinceTaken
  rw [List.foldl_append]
  rfl

/-- The list grows with what is linked, up to three buffers above the limit. -/
theorem listAfter_linked
    (positive : 0 < llbufNum)
    (actions : List Action)
    (action : Action) :
    listAfter llbufNum (min (linkedSinceTaken actions) (llbufNum.toNat + 3)) action =
      min (linkedSinceTaken (actions ++ [action])) (llbufNum.toNat + 3) := by
  rw [linkedSinceTaken_concat]
  cases action with
  | enqueue =>
      dsimp only [listAfter]
      split <;>
        omega
  | wake =>
      exact (Nat.zero_min _).symm
  | _ =>
      rfl

/-- What a run has come to: lists in memory, and the count of the shared one. -/
structure Counted
    (llbufNum : Int)
    (actions : List Action)
    (server : Server)
    (held : Held) : Prop where
  holds : server.Holds held
  limit : server.llbufNum = llbufNum
  count :
    held.queue.length = min (linkedSinceTaken actions) (llbufNum.toNat + 3)

theorem Counted.lists
    {actions : List Action}
    {server : Server}
    {held : Held}
    (counted : Counted llbufNum actions server held) :
    server.Lists (min (linkedSinceTaken actions) (llbufNum.toNat + 3)) :=
  ⟨held.queue, counted.holds.queueChain, counted.count⟩

/-- The count is right along every run. -/
theorem counted_run
    (positive : 0 < llbufNum)
    {actions : List Action}
    {server : Server}
    (reached : run step (start llbufNum) actions = some server) :
    ∃ held, Counted llbufNum actions server held := by
  apply invariant_history (fun actions server => ∃ held, Counted llbufNum actions server held)
    ?_ ?_ reached
  · exact ⟨_, start_holds positive.le, rfl, (Nat.zero_min _).symm⟩
  · rintro history state action next ⟨held, counted⟩ taken
    obtain ⟨after, holds, count⟩ := counted.holds.step taken
    refine ⟨after, holds, (step_llbufNum taken).trans counted.limit, ?_⟩
    rw [count, counted.limit, counted.count, listAfter_linked positive]

/-- When the callback drops a buffer, the list holds three more than the limit. -/
theorem Counted.drops
    (positive : 0 < llbufNum)
    {actions : List Action}
    {server next : Server}
    {held : Held}
    (counted : Counted llbufNum actions server held)
    (taken : server.step .enqueue = some next)
    (dropped : next.removed ≠ server.removed) :
    server.Lists (llbufNum.toNat + 3) := by
  have holds := counted.holds
  rw [step] at taken
  split at taken
  · cases taken
  · rename_i rpt filled
    cases taken
    rcases holds.callbackAt.of_filled filled with ⟨_, buf, here⟩
    rw [enqueue, here, append] at dropped
    dsimp only at dropped
    cases starts : server.llBuffers with
    | none =>
        rw [starts] at dropped
        exact absurd rfl dropped
    | some head =>
        rcases holds.findLast_queue starts with ⟨earlier, cur, last, queue, found⟩
        have length : held.queue.length = earlier.length + 1 := by
          rw [queue, List.length_append]
          rfl
        rw [starts] at dropped
        dsimp only at dropped
        rw [found] at dropped
        dsimp only at dropped
        split at dropped
        · rename_i full
          rw [counted.limit] at full
          exact ⟨held.queue, holds.queueChain, by omega⟩
        · rw [link_removed] at dropped
          exact absurd rfl dropped

end Counting

section Bound

variable {llbufNum : Int}

/--
The shared list never holds more buffers than the limit, and a buffer is dropped only
if the list would be longer, exactly if no more buffers than that are linked from one
time that the worker takes the list to the next.  In any case the list never holds
more than three buffers above the limit.
-/
theorem list_bounded_iff
    (positive : 0 < llbufNum)
    {actions : List Action}
    {final : Server}
    (reached : run step (start llbufNum) actions = some final) :
    ((EveryState step WithinLimit (start llbufNum) actions ∧
        EveryStep step DropsWhenFull (start llbufNum) actions) ↔
      ∀ earlier later,
        actions = earlier ++ later →
          (linkedSinceTaken earlier : Int) ≤ llbufNum) ∧
      EveryState step
        (fun server => ∃ count, server.Lists count ∧ (count : Int) ≤ llbufNum + 3)
        (start llbufNum) actions := by
  refine ⟨⟨?_, fun few => ⟨?_, ?_⟩⟩, ?_⟩
  · rintro ⟨within, _⟩ earlier later rfl
    obtain ⟨server, reachedEarlier, _⟩ := run_append_eq_some.mp reached
    obtain ⟨held, counted⟩ := counted_run positive reachedEarlier
    have bound :=
      (withinLimit_iff counted.lists).mp (within earlier later server rfl reachedEarlier)
    rw [counted.limit] at bound
    omega
  · intro earlier later server split reachedEarlier
    obtain ⟨held, counted⟩ := counted_run positive reachedEarlier
    rw [withinLimit_iff counted.lists, counted.limit]
    have bound := few earlier later split
    omega
  · intro earlier action later server next split reachedEarlier _ after isEnqueue taken dropped
    subst isEnqueue
    obtain ⟨held, counted⟩ := counted_run positive reachedEarlier
    refine ⟨_, counted.drops positive taken dropped, ?_⟩
    rw [counted.limit]
    omega
  · intro earlier later server split reachedEarlier
    obtain ⟨held, counted⟩ := counted_run positive reachedEarlier
    exact ⟨_, counted.lists, by omega⟩

/-- A buffer is linked and taken. -/
def takenActions : List Action :=
  [.loop, .copy 1 (oneByte 10), .enqueue, .wake]

/-- With a limit of one buffer the list holds one. -/
theorem list_bounded_iff_taken :
    ∃ final,
      run step (start 1) takenActions = some final ∧
        EveryState step WithinLimit (start 1) takenActions := by
  have few : ∀ length ≤ 4, linkedSinceTaken (takenActions.take length) ≤ 1 := by
    decide
  refine ⟨_, rfl, ((list_bounded_iff (by decide) rfl).1.mpr ?_).1⟩
  intro earlier later split
  have length : earlier.length ≤ 4 := by
    have whole := congrArg List.length split
    rw [List.length_append] at whole
    change 4 = _ at whole
    omega
  have isPrefix : takenActions.take earlier.length = earlier := by
    rw [split, List.take_left]
  have bound := few _ length
  rw [isPrefix] at bound
  exact_mod_cast bound

/-- Two buffers are linked before the worker takes the list. -/
def keptActions : List Action :=
  [.copy 1 (oneByte 10), .enqueue, .copy 2 (oneByte 20), .enqueue]

/-- With a limit of one buffer the list holds two. -/
theorem list_not_bounded :
    ¬ EveryState step WithinLimit (start 1) keptActions := by
  intro within
  obtain ⟨server, reached⟩ : ∃ server, run step (start 1) keptActions = some server :=
    ⟨_, rfl⟩
  obtain ⟨held, counted⟩ := counted_run (by decide) reached
  have bound :=
    (withinLimit_iff counted.lists).mp
      (within keptActions [] server (List.append_nil _).symm reached)
  rw [counted.limit] at bound
  revert bound
  decide

end Bound

end Server

end LibRtlSdr.RtlTcp
