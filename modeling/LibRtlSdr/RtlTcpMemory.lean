import LibRtlSdr.RtlTcpStreamOrder

namespace LibRtlSdr.RtlTcp

open LinkedCells PartialRun

/-!
# The memory of `rtl_tcp` over its connections

When a connection ends the main thread frees the shared list.  The list that the worker
had taken is only in the hands of the worker, and the worker leaves without it: the
buffers in it stay allocated for as long as the server runs.
-/

namespace Server

/-! ## Source -/

/-- The list that the worker has taken, as far as it was not freed. -/
def inHand : WorkerPc → Option Nat
  | .taking curelem => curelem
  | .sending curelem _ _ _ => some curelem
  | _ => none

/-- The loop of `main` that frees the shared list behind a connection. -/
def freeList : Nat → Heap Buffer → Option Nat → Option (Heap Buffer)
  | _, heap, none =>
      some heap
  | 0, _, some _ =>
      none
  | fuel + 1, heap, some curelem =>
      match heap curelem with
      | none =>
          none
      | some cell =>
          freeList fuel (free heap curelem) cell.next

/-- A connection before the first buffer, with the memory that the earlier ones left. -/
def startOn (heap : Heap Buffer) (llbufNum : Int) : Server :=
  { start llbufNum with heap := heap }

/--
A connection of `main`: it waits for the end of `rtlsdr_read_async` and for the worker,
and frees the shared list, which holds no more cells than buffers have arrived.
-/
def connection
    (llbufNum : Int)
    (heap : Heap Buffer)
    (actions : List Action) : Option (Heap Buffer) :=
  match run step (startOn heap llbufNum) actions with
  | none =>
      none
  | some server =>
      match server.callback, server.worker with
      | .outside, .exited =>
          freeList server.arrivals.length server.heap server.llBuffers
      | _, _ =>
          none

/-! ## The allocated cells -/

/-- The allocated cells are the old ones, those of the two lists, and the callback's. -/
structure Exact
    (old : Nat → Prop)
    (server : Server)
    (held : Held) : Prop where
  holds : server.Holds held
  allocated :
    ∀ address,
      (server.heap address).isSome ↔
        old address ∨ address ∈ addresses held.items ∨
          server.callback = .filled address
  apart :
    ∀ address, old address →
      address ∉ addresses held.items ∧ server.callback ≠ .filled address

/-- What a write leaves of the allocated cells. -/
theorem isSome_update_some
    (heap : Heap Buffer)
    (address : Nat)
    (cell : Cell Buffer)
    (other : Nat) :
    (Function.update heap address (some cell) other).isSome ↔
      (heap other).isSome ∨ other = address := by
  by_cases same : other = address
  · subst same
    simp
  · simp [same]

/-- What a free leaves of the allocated cells. -/
theorem isSome_free
    (heap : Heap Buffer)
    (address other : Nat) :
    (free heap address other).isSome ↔ (heap other).isSome ∧ other ≠ address := by
  by_cases same : other = address
  · subst same
    simp [free]
  · simp [free, same]

/-- A link changes no allocation. -/
theorem isSome_setNext
    {heap linked : Heap Buffer}
    {address : Nat}
    {next : Option Nat}
    (stored : setNext heap address next = some linked)
    (other : Nat) :
    (linked other).isSome ↔ (heap other).isSome := by
  rw [setNext, Option.map_eq_some_iff] at stored
  obtain ⟨cell, here, rfl⟩ := stored
  rw [isSome_update_some]
  constructor
  · rintro (isHere | rfl)
    · exact isHere
    · rw [here]
      rfl
  · exact Or.inl

namespace Exact

variable {old : Nat → Prop} {server : Server} {held : Held}

/-- A connection starts with the old cells alone. -/
theorem startOn
    (heap : Heap Buffer)
    {llbufNum : Int}
    (nonneg : 0 ≤ llbufNum) :
    Exact (fun address => (heap address).isSome) (Server.startOn heap llbufNum)
      ⟨[], none, [], [], 0⟩ where
  holds :=
    { sane := rfl
      limit := nonneg
      order := rfl
      bound := nofun
      contents := nofun
      detachedChain := rfl
      queueChain := rfl
      distinct := List.nodup_nil
      workerAt := .top
      callbackAt := .outside
      accepted := rfl }
  allocated := by
    intro address
    simp [Server.startOn, start, Held.items, addresses]
  apart := by
    intro address _
    simp [Server.startOn, start, Held.items, addresses]

/-- Steps that allocate and free nothing, and move no buffer from one list to the other. -/
theorem of_same
    (exact : Exact old server held)
    {next : Server}
    {after : Held}
    (holds : next.Holds after)
    (heap : next.heap = server.heap)
    (callback : next.callback = server.callback)
    (items : after.items = held.items) :
    Exact old next after where
  holds := holds
  allocated := by
    rw [heap, callback, items]
    exact exact.allocated
  apart := by
    rw [callback, items]
    exact exact.apart

/-- The callback allocates an element. -/
theorem copy
    (exact : Exact old server held)
    {rpt : Nat}
    (outside : server.callback = .outside)
    (fresh : server.heap rpt = none)
    (buf : Samples) :
    Exact old
      { server with
        heap :=
          Function.update server.heap rpt
            (some ⟨⟨buf, server.arrivals.length⟩, none⟩)
        callback := .filled rpt }
      held where
  holds := exact.holds.copy fresh buf
  allocated := by
    intro address
    rw [isSome_update_some, exact.allocated, outside]
    simp only [CallbackPc.filled.injEq, reduceCtorEq, or_false]
    tauto
  apart := by
    intro address isOld
    refine ⟨(exact.apart address isOld).1, ?_⟩
    intro filled
    have there := (exact.allocated address).mpr (.inl isOld)
    cases filled
    rw [fresh] at there
    cases there

/-- A cell of the lists is neither an old one nor the callback's. -/
theorem own
    (exact : Exact old server held)
    {address : Nat}
    (member : address ∈ addresses held.items) :
    ¬ old address ∧ server.callback ≠ .filled address := by
  refine ⟨fun isOld => (exact.apart address isOld).1 member, ?_⟩
  intro filled
  exact (exact.holds.callbackAt.of_filled filled).1 member

/-- A cell of the lists is freed. -/
theorem free
    (exact : Exact old server held)
    {head : Nat}
    (member : head ∈ addresses held.items)
    {next : Server}
    {after : Held}
    (holds : next.Holds after)
    (heap : next.heap = LinkedCells.free server.heap head)
    (callback : next.callback = server.callback)
    (items :
      ∀ address,
        address ∈ addresses after.items ↔ address ∈ addresses held.items ∧ address ≠ head) :
    Exact old next after where
  holds := holds
  allocated := by
    intro address
    obtain ⟨notOld, notFilled⟩ := exact.own member
    rw [heap, isSome_free, exact.allocated, items, callback]
    constructor
    · rintro ⟨isOld | inItems | filled, differs⟩
      · exact .inl isOld
      · exact .inr (.inl ⟨inItems, differs⟩)
      · exact .inr (.inr filled)
    · rintro (isOld | ⟨inItems, differs⟩ | filled)
      · refine ⟨.inl isOld, ?_⟩
        rintro rfl
        exact notOld isOld
      · exact ⟨.inr (.inl inItems), differs⟩
      · refine ⟨.inr (.inr filled), ?_⟩
        rintro rfl
        exact notFilled filled
  apart := by
    intro address isOld
    obtain ⟨notItem, notFilled⟩ := exact.apart address isOld
    rw [items, callback]
    exact ⟨fun member => notItem member.1, notFilled⟩

/-- The oldest buffer of the shared list is dropped. -/
theorem dropHead
    (exact : Exact old server held)
    {head : Nat}
    {first : Buffer}
    {rest : List (Nat × Buffer)}
    (queue : held.queue = (head, first) :: rest) :
    Exact old (server.dropHead head) { held with queue := rest } := by
  have member : head ∈ addresses held.items := by
    simp [Held.items, queue, addresses]
  have holds := exact.holds.dropHead queue
  obtain ⟨cell, here⟩ := exact.holds.exists_cell member
  have dropped :
      server.dropHead head =
        { server with
          heap := LinkedCells.free server.heap head
          llBuffers := cell.next
          removed := server.removed ++ [cell.payload.number] } := by
    rw [Server.dropHead, here]
  have distinct := exact.holds.distinct
  rw [Held.items, queue, addresses_append, List.nodup_append] at distinct
  obtain ⟨_, distinctQueue, apart⟩ := distinct
  have notInRest : head ∉ addresses rest :=
    (List.nodup_cons.mp distinctQueue).1
  refine exact.free member holds (by rw [dropped]) (by rw [dropped]) ?_
  intro address
  simp only [Held.items, queue, addresses_append, List.mem_append]
  have cons : addresses ((head, first) :: rest) = head :: addresses rest := rfl
  rw [cons, List.mem_cons]
  constructor
  · rintro (inDetached | inRest)
    · refine ⟨.inl inDetached, ?_⟩
      exact apart address inDetached head List.mem_cons_self
    · refine ⟨.inr (.inr inRest), ?_⟩
      rintro rfl
      exact notInRest inRest
  · rintro ⟨inDetached | isHead | inRest, differs⟩
    · exact .inl inDetached
    · exact absurd isHead differs
    · exact .inr inRest

/-- The element of the callback becomes the last one of the shared list. -/
theorem arrive
    (exact : Exact old server held)
    {rpt : Nat}
    (filled : server.callback = .filled rpt)
    {next : Server}
    {added : Buffer}
    (holds : next.Holds { held with queue := held.queue ++ [(rpt, added)] })
    (heap : ∀ address, (next.heap address).isSome ↔ (server.heap address).isSome)
    (callback : next.callback = .outside) :
    Exact old next { held with queue := held.queue ++ [(rpt, added)] } where
  holds := holds
  allocated := by
    intro address
    have items :
        address ∈ addresses (held.detached ++ (held.queue ++ [(rpt, added)])) ↔
          address ∈ addresses held.items ∨ rpt = address := by
      simp only [Held.items, addresses_append, List.mem_append, or_assoc]
      simp [addresses, eq_comm]
    rw [heap, exact.allocated, filled, callback]
    simp only [Held.items, items, CallbackPc.filled.injEq, reduceCtorEq, or_false]
  apart := by
    intro address isOld
    obtain ⟨notItem, notFilled⟩ := exact.apart address isOld
    rw [callback]
    refine ⟨?_, CallbackPc.noConfusion⟩
    simp only [Held.items, addresses_append, List.mem_append] at notItem ⊢
    rintro (inDetached | inQueue | isRpt)
    · exact notItem (.inl inDetached)
    · exact notItem (.inr inQueue)
    · obtain rfl : address = rpt := by simpa [addresses] using isRpt
      exact notFilled filled

/-- A link leaves the allocations. -/
theorem isSome_link
    (holds : server.Holds held)
    {cur : Nat}
    (member : cur ∈ addresses held.items)
    (rpt numQueued address : Nat) :
    ((server.link cur rpt numQueued).heap address).isSome ↔
      (server.heap address).isSome := by
  obtain ⟨cell, here⟩ := holds.exists_cell member
  have stored :
      setNext server.heap cur (some rpt) =
        some (Function.update server.heap cur (some { cell with next := some rpt })) := by
    rw [setNext, here]
    rfl
  rw [Server.link, stored]
  exact isSome_setNext stored address

/-- The critical section of the callback. -/
theorem enqueue
    (exact : Exact old server held)
    {rpt : Nat}
    (filled : server.callback = .filled rpt) :
    ∃ queue, Exact old (server.enqueue rpt) { held with queue := queue } := by
  have holds := exact.holds
  obtain ⟨outside, buf, here⟩ := holds.callbackAt.of_filled filled
  rw [Server.enqueue, here, Server.append]
  dsimp only
  rcases starts : server.llBuffers with _ | head
  · exact ⟨_, exact.arrive filled (holds.arriveFirst here outside starts)
      (fun _ => Iff.rfl) rfl⟩
  · obtain ⟨earlier, cur, last, queue, found⟩ := holds.findLast_queue starts
    dsimp only
    rw [found]
    dsimp only
    split
    · rename_i full
      obtain ⟨oldest, first, between, split⟩ := Holds.exists_between queue holds.limit full.2
      have chain := holds.queueChain
      rw [starts, split] at chain
      cases Option.some.inj chain.1
      obtain ⟨second, hereOldest, _⟩ := chain.tail
      have dropped := exact.dropHead split
      have droppedFilled : (server.dropHead head).callback = .filled rpt := by
        rw [Server.dropHead, hereOldest]
        exact filled
      have inRest :
          cur ∈ addresses ({ held with queue := between ++ [(cur, last)] } : Held).items := by
        simp [Held.items, addresses]
      obtain ⟨stillOutside, _, stillHere⟩ :=
        dropped.holds.callbackAt.of_filled droppedFilled
      have notOldest : rpt ≠ head := by
        rintro rfl
        apply outside
        simp [Held.items, split, addresses]
      have arrivals : (server.dropHead head).arrivals = server.arrivals := by
        rw [Server.dropHead, hereOldest]
      have hereStill :
          (server.dropHead head).heap rpt =
            some ⟨⟨buf, (server.dropHead head).arrivals.length⟩, none⟩ := by
        rw [arrivals, Server.dropHead, hereOldest]
        exact (Function.update_of_ne notOldest none server.heap).trans here
      have behind :=
        dropped.holds.arriveBehind hereStill stillOutside rfl earlier.length
      rw [arrivals] at behind
      exact ⟨_, dropped.arrive droppedFilled behind
        (isSome_link dropped.holds inRest rpt earlier.length) rfl⟩
    · have inQueue : cur ∈ addresses held.items := by
        simp [Held.items, queue, addresses]
      exact ⟨_, exact.arrive filled (holds.arriveBehind here outside queue earlier.length)
        (isSome_link holds inQueue rpt earlier.length) rfl⟩

/-- The worker frees the buffer it is through with. -/
theorem release
    (exact : Exact old server held)
    {curelem : Nat}
    {bytesleft index bytessent : Int}
    (sending : server.worker = .sending curelem bytesleft index bytessent)
    (through : bytesleft ≤ 0) :
    ∃ after,
      Exact old (server.release curelem bytesleft) after ∧
        (server.release curelem bytesleft).worker ≠ .exited := by
  obtain ⟨first, rest, pointer, detached, _⟩ := exact.holds.workerAt.of_sending sending
  have chain := exact.holds.detachedChain
  rw [pointer, detached] at chain
  obtain ⟨isFirst, next, here, restChain⟩ := chain
  cases Option.some.inj isFirst
  obtain ⟨after, released, queue⟩ := exact.holds.release sending through
  have distinct := exact.holds.distinct
  have items : held.items = first :: (rest ++ held.queue) := by
    rw [Held.items, detached]
    rfl
  rw [items] at distinct
  obtain ⟨notLater, _⟩ := List.nodup_cons.mp distinct
  have notInRest : first.1 ∉ addresses rest := by
    intro member
    apply notLater
    simp only [List.map_append, List.mem_append]
    exact .inl member
  have freed :
      (server.release first.1 bytesleft).heap = LinkedCells.free server.heap first.1 := by
    rw [Server.release, here]
  have worker : (server.release first.1 bytesleft).worker = .taking next := by
    rw [Server.release, here]
  have callback : (server.release first.1 bytesleft).callback = server.callback := by
    rw [Server.release, here]
  -- the worker's pointer tells what it still holds
  have afterDetached : after.detached = rest := by
    have afterChain := released.detachedChain
    rw [(released.workerAt.of_taking worker).1, freed] at afterChain
    exact afterChain.functional (restChain.update notInRest none)
  have afterItems : after.items = rest ++ held.queue := by
    rw [Held.items, afterDetached, queue]
  refine ⟨after, exact.free ?_ released freed callback ?_, ?_⟩
  · simp [items, addresses]
  · intro address
    rw [afterItems, items]
    have cons :
        addresses (first :: (rest ++ held.queue)) =
          first.1 :: addresses (rest ++ held.queue) := rfl
    rw [cons, List.mem_cons]
    constructor
    · intro later
      refine ⟨.inr later, ?_⟩
      rintro rfl
      exact notLater later
    · rintro ⟨isHead | later, differs⟩
      · exact absurd isHead differs
      · exact later
  · rw [worker]
    intro exited
    cases exited

/-- One step of either thread; behind its exit the worker's list stays as it was. -/
theorem step
    (exact : Exact old server held)
    {action : Action}
    {next : Server}
    (taken : server.step action = some next) :
    ∃ after,
      Exact old next after ∧
        (next.worker = .exited → after.detached = held.detached) := by
  cases step_cases taken with
  | copy buf outside _ fresh =>
      exact ⟨held, exact.copy outside fresh buf, fun _ => rfl⟩
  | enqueue filled =>
      obtain ⟨queue, after⟩ := exact.enqueue filled
      exact ⟨_, after, fun _ => rfl⟩
  | requestExit =>
      exact ⟨held, exact.of_same (exact.holds.moveWorker exact.holds.workerAt) rfl rfl rfl,
        fun _ => rfl⟩
  | leave =>
      exact ⟨held, exact.of_same (exact.holds.moveWorker (.exited _ _ _)) rfl rfl rfl,
        fun _ => rfl⟩
  | wait top =>
      obtain ⟨noPointer, noneHeld, noProgress⟩ := exact.holds.workerAt.of_idle (.inl top)
      have waits :
          WorkerAt .waiting held.pointer held.detached held.index := by
        rw [noPointer, noneHeld, noProgress]
        exact .waiting
      exact ⟨held, exact.of_same (exact.holds.moveWorker waits) rfl rfl rfl,
        fun _ => rfl⟩
  | condTimeout =>
      exact ⟨held, exact.of_same exact.holds.bye rfl rfl rfl, fun _ => rfl⟩
  | wake waiting =>
      obtain ⟨_, noneHeld, _⟩ := exact.holds.workerAt.of_idle (.inr waiting)
      refine ⟨_, exact.of_same (exact.holds.wake waiting) rfl rfl ?_, nofun⟩
      simp [Held.items, noneHeld]
  | through taking =>
      exact ⟨held, exact.of_same (exact.holds.fetchNone taking) rfl rfl rfl, fun _ => rfl⟩
  | fetch taking =>
      refine ⟨held, exact.of_same (exact.holds.fetch taking) ?_ ?_ rfl, fun _ => rfl⟩
      · unfold Server.fetch Server.crash
        split <;> rfl
      · unfold Server.fetch Server.crash
        split <;> rfl
  | selectTimeout sending =>
      refine ⟨held, exact.of_same (exact.holds.afterSend fun _ => ?_) ?_ ?_ rfl,
        fun _ => rfl⟩
      · rw [← sending]
        exact exact.holds.workerAt
      · unfold Server.afterSend Server.bye
        split <;> rfl
      · unfold Server.afterSend Server.bye
        split <;> rfl
  | send sending more inRoom =>
      refine ⟨_, exact.of_same (exact.holds.send sending more inRoom) ?_ ?_ rfl,
        fun _ => rfl⟩
      · unfold Server.send Server.afterSend Server.bye Server.crash
        split
        · rfl
        · split_ifs <;> rfl
      · unfold Server.send Server.afterSend Server.bye Server.crash
        split
        · rfl
        · split_ifs <;> rfl
  | sendFailed =>
      refine ⟨held,
        exact.of_same (exact.holds.afterSend fun succeeded => absurd rfl succeeded) ?_ ?_ rfl,
        fun _ => rfl⟩
      · unfold Server.afterSend Server.bye
        split <;> rfl
      · unfold Server.afterSend Server.bye
        split <;> rfl
  | release sending through =>
      obtain ⟨after, released, goesOn⟩ := exact.release sending through
      exact ⟨after, released, fun exited => absurd exited goesOn⟩

/-- Until it leaves the worker has its list in its hand. -/
theorem inHand_chain
    (exact : Exact old server held)
    (running : server.worker ≠ .exited) :
    Chain server.heap (inHand server.worker) held.detached := by
  have chain := exact.holds.detachedChain
  rcases at' : server.worker with _ | _ | curelem | ⟨curelem, bytesleft, index, sent⟩ | _
  · obtain ⟨noPointer, noneHeld, _⟩ := exact.holds.workerAt.of_idle (.inl at')
    rw [noneHeld]
    rfl
  · obtain ⟨noPointer, noneHeld, _⟩ := exact.holds.workerAt.of_idle (.inr at')
    rw [noneHeld]
    rfl
  · rw [(exact.holds.workerAt.of_taking at').1] at chain
    exact chain
  · obtain ⟨_, _, pointer, _⟩ := exact.holds.workerAt.of_sending at'
    rw [pointer] at chain
    exact chain
  · exact absurd at' running

end Exact

/-! ## The end of a connection -/

/-- The loop of `main` frees the cells of a list and no others. -/
theorem freeList_chain
    {heap : Heap Buffer}
    {start : Option Nat}
    {items : List (Nat × Buffer)}
    (chain : Chain heap start items)
    (distinct : (addresses items).Nodup)
    {fuel : Nat}
    (enough : items.length ≤ fuel) :
    ∃ freed,
      freeList fuel heap start = some freed ∧
        ∀ address,
          (freed address).isSome ↔ (heap address).isSome ∧ address ∉ addresses items := by
  induction items generalizing heap start fuel with
  | nil =>
      cases chain
      refine ⟨heap, by cases fuel <;> rfl, ?_⟩
      simp [addresses]
  | cons first rest inductionHypothesis =>
      obtain ⟨isFirst, next, here, others⟩ := chain
      subst isFirst
      obtain ⟨notLater, distinctRest⟩ := List.nodup_cons.mp distinct
      obtain ⟨fuel, rfl⟩ : ∃ less, fuel = less + 1 :=
        ⟨fuel - 1, by rw [List.length_cons] at enough; omega⟩
      have later := others.update notLater none
      obtain ⟨freed, isFreed, cells⟩ :=
        inductionHypothesis later distinctRest (Nat.le_of_succ_le_succ enough)
      refine ⟨freed, ?_, ?_⟩
      · rw [freeList, here]
        exact isFreed
      · intro address
        have cons : addresses (first :: rest) = first.1 :: addresses rest := rfl
        have first := isSome_free heap first.1 address
        rw [free] at first
        rw [cells, first, cons, List.mem_cons, not_or, and_assoc]

/-- How a worker has left: the state before its last step, and the list in its hand. -/
def Leaves
    (llbufNum : Int)
    (heap : Heap Buffer)
    (actions : List Action)
    (inHands : List (Nat × Buffer)) : Prop :=
  ∃ earlier action later before after,
    actions = earlier ++ action :: later ∧
      run step (startOn heap llbufNum) earlier = some before ∧
      before.step action = some after ∧
      before.worker ≠ .exited ∧ after.worker = .exited ∧
      Chain before.heap (inHand before.worker) inHands

/-- Steps behind the exit of the worker do not change how it has left. -/
theorem Leaves.concat
    {llbufNum : Int}
    {heap : Heap Buffer}
    {actions : List Action}
    {inHands : List (Nat × Buffer)}
    (leaves : Leaves llbufNum heap actions inHands)
    (action : Action) :
    Leaves llbufNum heap (actions ++ [action]) inHands := by
  obtain ⟨earlier, exit, later, before, after, split, rest⟩ := leaves
  refine ⟨earlier, exit, later ++ [action], before, after, ?_, rest⟩
  rw [split, List.append_assoc, List.cons_append]

/-- Along a connection the allocated cells are known, and so is what the worker leaves. -/
theorem exact_run
    {llbufNum : Int}
    (nonneg : 0 ≤ llbufNum)
    {heap : Heap Buffer}
    {actions : List Action}
    {server : Server}
    (reached : run step (startOn heap llbufNum) actions = some server) :
    ∃ held,
      Exact (fun address => (heap address).isSome) server held ∧
        (server.worker = .exited → Leaves llbufNum heap actions held.detached) := by
  have both :
      run step (startOn heap llbufNum) actions = some server ∧
        ∃ held,
          Exact (fun address => (heap address).isSome) server held ∧
            (server.worker = .exited → Leaves llbufNum heap actions held.detached) := by
    refine invariant_history
      (fun history state =>
        run step (startOn heap llbufNum) history = some state ∧
          ∃ held,
            Exact (fun address => (heap address).isSome) state held ∧
              (state.worker = .exited → Leaves llbufNum heap history held.detached))
      ⟨rfl, _, Exact.startOn heap nonneg, nofun⟩ ?_ reached
    rintro history state action next ⟨reachedState, held, exact, leaves⟩ taken
    obtain ⟨after, exactAfter, kept⟩ := exact.step taken
    refine ⟨run_concat_eq_some.mpr ⟨state, reachedState, taken⟩, after, exactAfter, ?_⟩
    intro exited
    rw [kept exited]
    by_cases before : state.worker = .exited
    · exact (leaves before).concat action
    · exact ⟨history, action, [], state, next, rfl, reachedState, taken, before, exited,
        exact.inHand_chain before⟩
  exact both.2

/-- Of a connection nothing stays allocated but the list in the worker's hand. -/
theorem connection_exact
    {llbufNum : Int}
    (nonneg : 0 ≤ llbufNum)
    {heap final : Heap Buffer}
    {actions : List Action}
    (ended : connection llbufNum heap actions = some final) :
    ∃ inHands,
      Leaves llbufNum heap actions inHands ∧
        (addresses inHands).Nodup ∧
        (∀ address, (heap address).isSome → address ∉ addresses inHands) ∧
        ∀ address,
          (final address).isSome ↔
            (heap address).isSome ∨ address ∈ addresses inHands := by
  unfold connection at ended
  rcases reached : run step (startOn heap llbufNum) actions with _ | server
  · rw [reached] at ended
    cases ended
  · rw [reached] at ended
    dsimp only at ended
    split at ended
    · rename_i outside exited
      obtain ⟨held, exact, leaves⟩ := exact_run nonneg reached
      have distinct := exact.holds.distinct
      rw [Held.items, addresses_append, List.nodup_append] at distinct
      obtain ⟨distinctDetached, distinctQueue, apart⟩ := distinct
      obtain ⟨freed, isFreed, cells⟩ :=
        freeList_chain exact.holds.queueChain distinctQueue exact.holds.length_queue_le
      obtain rfl := Option.some.inj (isFreed.symm.trans ended)
      refine ⟨held.detached, leaves exited, distinctDetached, ?_, ?_⟩
      · intro address isOld member
        apply (exact.apart address isOld).1
        rw [Held.items, addresses_append]
        exact List.mem_append_left _ member
      · intro address
        rw [cells, exact.allocated, outside, Held.items, addresses_append,
          List.mem_append]
        constructor
        · rintro ⟨isOld | (inDetached | inQueue) | filled, notQueue⟩
          · exact .inl isOld
          · exact .inr inDetached
          · exact absurd inQueue notQueue
          · cases filled
        · rintro (isOld | inDetached)
          · refine ⟨.inl isOld, fun inQueue => ?_⟩
            apply (exact.apart address isOld).1
            rw [Held.items, addresses_append]
            exact List.mem_append_right _ inQueue
          · exact ⟨.inr (.inl (.inl inDetached)),
              fun inQueue => apart address inDetached address inQueue rfl⟩
    · cases ended

/-! ## All connections of a server -/

/-- Connections one after the other, each on the memory that the last one has left. -/
def connections (llbufNum : Int) (heap : Heap Buffer) :
    List (List Action) → Option (Heap Buffer)
  | [] =>
      some heap
  | actions :: rest =>
      (connection llbufNum heap actions).bind fun next => connections llbufNum next rest

/-- What the workers of some connections had in hand when they left. -/
inductive LeftBy (llbufNum : Int) :
    Heap Buffer → List (List Action) → List (List (Nat × Buffer)) → Prop
  | nil (heap : Heap Buffer) :
      LeftBy llbufNum heap [] []
  | cons
      {heap next : Heap Buffer}
      {actions : List Action}
      {rest : List (List Action)}
      {inHands : List (Nat × Buffer)}
      {others : List (List (Nat × Buffer))} :
      connection llbufNum heap actions = some next →
      Leaves llbufNum heap actions inHands →
      LeftBy llbufNum next rest others →
      LeftBy llbufNum heap (actions :: rest) (inHands :: others)

/-- The cells of several lists. -/
theorem addresses_flatten_cons
    (first : List (Nat × Buffer))
    (others : List (List (Nat × Buffer))) :
    addresses (first :: others).flatten = addresses first ++ addresses others.flatten := by
  rw [List.flatten_cons, addresses_append]

/-- Each connection adds to the allocated cells what its worker had in hand. -/
theorem connections_exact
    {llbufNum : Int}
    (nonneg : 0 ≤ llbufNum)
    {heap final : Heap Buffer}
    {clients : List (List Action)}
    (served : connections llbufNum heap clients = some final) :
    ∃ left,
      LeftBy llbufNum heap clients left ∧
        (addresses left.flatten).Nodup ∧
        (∀ address, (heap address).isSome → address ∉ addresses left.flatten) ∧
        ∀ address,
          (final address).isSome ↔
            (heap address).isSome ∨ address ∈ addresses left.flatten := by
  induction clients generalizing heap with
  | nil =>
      cases served
      exact ⟨[], .nil _, List.nodup_nil, by simp [addresses], by simp [addresses]⟩
  | cons actions rest inductionHypothesis =>
      rw [connections, Option.bind_eq_some_iff] at served
      obtain ⟨next, ended, servedRest⟩ := served
      obtain ⟨inHands, leaves, distinct, fresh, cells⟩ := connection_exact nonneg ended
      obtain ⟨others, left, distinctOthers, freshOthers, cellsOthers⟩ :=
        inductionHypothesis servedRest
      refine ⟨inHands :: others, .cons ended leaves left, ?_, ?_, ?_⟩
      · rw [addresses_flatten_cons, List.nodup_append]
        refine ⟨distinct, distinctOthers, ?_⟩
        rintro address inFirst other inOthers rfl
        exact freshOthers address ((cells address).mpr (.inr inFirst)) inOthers
      · intro address isOld
        rw [addresses_flatten_cons, List.mem_append, not_or]
        exact ⟨fresh address isOld,
          freshOthers address ((cells address).mpr (.inl isOld))⟩
      · intro address
        rw [cellsOthers, cells, addresses_flatten_cons, List.mem_append, or_assoc]

/-- The first client is gone before its two buffers are sent, the second one before any came. -/
def leavingClients : List (List Action) :=
  [[.loop, .copy 1 (oneByte 10), .enqueue, .copy 2 (oneByte 20), .enqueue, .wake, .fetch,
      .copy 3 (oneByte 30), .enqueue, .sendFailed],
    [.loop, .copy 4 (oneByte 40), .enqueue, .condTimeout]]

end Server

end LibRtlSdr.RtlTcp
