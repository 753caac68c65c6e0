import LibRtlSdr.RtlTcpStream
import Mathlib.Data.List.Range

namespace LibRtlSdr.RtlTcp

open LinkedCells PartialRun

/-!
# The order of the sample stream

The buffers that are still in memory lie in two chains, the worker's and the
shared one, in the order of their arrival.  What the socket has accepted are the
buffers before them without the removed ones, and a part of the first one.
-/

namespace Server

/-- The numbers of the buffers that were not taken out. -/
def keptNumbers (arrived : Nat) (removed : List Nat) : List Nat :=
  (List.range arrived).filter fun number => number ∉ removed

/-- The buffer with a number. -/
def buffer (arrivals : List (List UInt8)) (number : Nat) : List UInt8 :=
  arrivals.getD number []

/-- The bytes that should reach the client: the buffers in their order, without the removed ones. -/
def keptBytes (server : Server) : List UInt8 :=
  (keptNumbers server.arrivals.length server.removed).flatMap
    (buffer server.arrivals)

theorem mem_keptNumbers
    {arrived number : Nat}
    {removed : List Nat} :
    number ∈ keptNumbers arrived removed ↔
      number < arrived ∧ number ∉ removed := by
  simp [keptNumbers]

theorem keptNumbers_sorted (arrived : Nat) (removed : List Nat) :
    (keptNumbers arrived removed).Pairwise (· < ·) :=
  List.pairwise_lt_range.filter _

/-- A new buffer is the last one to be sent. -/
theorem keptNumbers_arrival
    {arrived : Nat}
    {removed : List Nat}
    (bound : ∀ number ∈ removed, number < arrived) :
    keptNumbers (arrived + 1) removed =
      keptNumbers arrived removed ++ [arrived] := by
  have notRemoved : arrived ∉ removed :=
    fun member => Nat.lt_irrefl _ (bound arrived member)
  rw [keptNumbers, List.range_succ, List.filter_append]
  simp [keptNumbers, notRemoved]

/-- A buffer that is taken out is missing from those to be sent. -/
theorem keptNumbers_removal
    {arrived number : Nat}
    {removed before after : List Nat}
    (order : keptNumbers arrived removed = before ++ number :: after) :
    keptNumbers arrived (removed ++ [number]) = before ++ after := by
  have sorted := keptNumbers_sorted arrived removed
  rw [order, List.pairwise_append, List.pairwise_cons] at sorted
  rcases sorted with ⟨_, ⟨larger, _⟩, smaller⟩
  have split :
      keptNumbers arrived (removed ++ [number]) =
        (keptNumbers arrived removed).filter (· ≠ number) := by
    rw [keptNumbers, keptNumbers, List.filter_filter]
    apply List.filter_congr
    intro other _
    simp [and_comm]
  have keepsBefore : before.filter (· ≠ number) = before := by
    apply List.filter_eq_self.mpr
    intro other member
    exact decide_eq_true
      (Nat.ne_of_lt (smaller other member number List.mem_cons_self))
  have keepsAfter : after.filter (· ≠ number) = after := by
    apply List.filter_eq_self.mpr
    intro other member
    exact decide_eq_true (Nat.ne_of_gt (larger other member))
  rw [split, order, List.filter_append, List.filter_cons_of_neg (by simp),
    keepsBefore, keepsAfter]

/-- The numbers of the buffers in a chain. -/
def numbers (items : List (Nat × Buffer)) : List Nat :=
  items.map fun item => item.2.number

/-- How far the worker is with the buffers it has taken. -/
inductive WorkerAt :
    WorkerPc → Option Nat → List (Nat × Buffer) → Nat → Prop
  | top : WorkerAt .top none [] 0
  | waiting : WorkerAt .waiting none [] 0
  | taking (curelem : Option Nat) (detached : List (Nat × Buffer)) :
      WorkerAt (.taking curelem) curelem detached 0
  | sending
      {curelem index : Nat}
      {bytesleft bytessent : Int}
      {first : Nat × Buffer}
      {rest : List (Nat × Buffer)} :
      bytesleft =
        (first.2.data.bytes.length : Int).bmod (2 ^ 32) - index →
      index ≤ first.2.data.bytes.length →
      (bytesleft < 0 → index = 0) →
      bytessent ≠ -1 →
      WorkerAt (.sending curelem bytesleft index bytessent)
        (some curelem) (first :: rest) index
  | exited
      (pointer : Option Nat)
      (detached : List (Nat × Buffer))
      (index : Nat) :
      WorkerAt .exited pointer detached index

/-- What is known in the loop over one buffer. -/
theorem WorkerAt.of_sending
    {pc : WorkerPc}
    {pointer : Option Nat}
    {detached : List (Nat × Buffer)}
    {progress curelem : Nat}
    {bytesleft index bytessent : Int}
    (workerAt : WorkerAt pc pointer detached progress)
    (sending : pc = .sending curelem bytesleft index bytessent) :
    ∃ first rest,
      pointer = some curelem ∧ detached = first :: rest ∧
        index = progress ∧
        bytesleft =
          (first.2.data.bytes.length : Int).bmod (2 ^ 32) - progress ∧
        progress ≤ first.2.data.bytes.length ∧
        (bytesleft < 0 → progress = 0) ∧
        bytessent ≠ -1 := by
  cases workerAt with
  | sending left inside skipped succeeded =>
      cases sending
      exact ⟨_, _, rfl, rfl, rfl, left, inside, skipped, succeeded⟩
  | top =>
      cases sending
  | waiting =>
      cases sending
  | taking curelem detached =>
      cases sending
  | exited pointer detached index =>
      cases sending

/-- At the head of its loop and while it waits, the worker holds no buffer. -/
theorem WorkerAt.of_idle
    {pc : WorkerPc}
    {pointer : Option Nat}
    {detached : List (Nat × Buffer)}
    {progress : Nat}
    (workerAt : WorkerAt pc pointer detached progress)
    (idle : pc = .top ∨ pc = .waiting) :
    pointer = none ∧ detached = [] ∧ progress = 0 := by
  cases workerAt with
  | top =>
      exact ⟨rfl, rfl, rfl⟩
  | waiting =>
      exact ⟨rfl, rfl, rfl⟩
  | sending =>
      rcases idle with isTop | isWaiting
      · cases isTop
      · cases isWaiting
  | taking curelem detached =>
      rcases idle with isTop | isWaiting
      · cases isTop
      · cases isWaiting
  | exited pointer detached index =>
      rcases idle with isTop | isWaiting
      · cases isTop
      · cases isWaiting

/-- Between two buffers the worker points to the rest of the list. -/
theorem WorkerAt.of_taking
    {pc : WorkerPc}
    {pointer curelem : Option Nat}
    {detached : List (Nat × Buffer)}
    {progress : Nat}
    (workerAt : WorkerAt pc pointer detached progress)
    (taking : pc = .taking curelem) :
    pointer = curelem ∧ progress = 0 := by
  cases workerAt with
  | taking curelem detached =>
      cases taking
      exact ⟨rfl, rfl⟩
  | top =>
      cases taking
  | waiting =>
      cases taking
  | sending =>
      cases taking
  | exited pointer detached index =>
      cases taking

/-- What an action does, and where the thread that takes it is before. -/
inductive Steps (server : Server) : Action → Server → Prop
  | copy {rpt : Nat} (buf : Samples) :
      server.callback = .outside →
      server.doExit = false →
      server.heap rpt = none →
      Steps server (.copy rpt buf)
        { server with
          heap :=
            Function.update server.heap rpt
              (some ⟨⟨buf, server.arrivals.length⟩, none⟩)
          callback := .filled rpt }
  | enqueue {rpt : Nat} :
      server.callback = .filled rpt →
      Steps server .enqueue (server.enqueue rpt)
  | requestExit :
      Steps server .requestExit { server with doExit := true }
  | leave :
      server.worker = .top →
      server.doExit = true →
      Steps server .loop { server with worker := .exited }
  | wait :
      server.worker = .top →
      server.doExit = false →
      Steps server .loop { server with worker := .waiting }
  | condTimeout :
      server.worker = .waiting →
      Steps server .condTimeout server.bye
  | wake :
      server.worker = .waiting →
      Steps server .wake
        { server with
          worker := .taking server.llBuffers
          llBuffers := none }
  | through :
      server.worker = .taking none →
      Steps server .fetch { server with worker := .top }
  | fetch {curelem : Nat} :
      server.worker = .taking (some curelem) →
      Steps server .fetch (server.fetch curelem)
  | selectTimeout {curelem : Nat} {bytesleft index bytessent : Int} :
      server.worker = .sending curelem bytesleft index bytessent →
      0 < bytesleft →
      Steps server .selectTimeout
        (server.afterSend curelem bytesleft index bytessent)
  | send {curelem count : Nat} {bytesleft index bytessent : Int} :
      server.worker = .sending curelem bytesleft index bytessent →
      0 < bytesleft →
      (count : Int) ≤ bytesleft →
      Steps server (.send count) (server.send curelem bytesleft index count)
  | sendFailed {curelem : Nat} {bytesleft index bytessent : Int} :
      server.worker = .sending curelem bytesleft index bytessent →
      0 < bytesleft →
      Steps server .sendFailed
        (server.afterSend curelem (bytesleft - -1) (index + -1) (-1))
  | release {curelem : Nat} {bytesleft index bytessent : Int} :
      server.worker = .sending curelem bytesleft index bytessent →
      bytesleft ≤ 0 →
      Steps server .release (server.release curelem bytesleft)

/-- A step of the server is one of these. -/
theorem step_cases
    {server next : Server}
    {action : Action}
    (taken : server.step action = some next) :
    server.Steps action next := by
  cases action with
  | copy rpt buf =>
      rw [step] at taken
      split at taken
      · rename_i outside
        split at taken
        · rename_i allowed
          cases taken
          exact .copy buf outside allowed.1 allowed.2
        · cases taken
      · cases taken
  | enqueue =>
      rw [step] at taken
      split at taken
      · cases taken
      · rename_i rpt filled
        cases taken
        exact .enqueue filled
  | requestExit =>
      cases taken
      exact .requestExit
  | loop =>
      rw [step] at taken
      split at taken
      · rename_i top
        split at taken
        · rename_i exits
          cases taken
          exact .leave top exits
        · rename_i stays
          cases taken
          exact .wait top (Bool.eq_false_of_not_eq_true stays)
      · cases taken
  | condTimeout =>
      rw [step] at taken
      split at taken
      · rename_i waiting
        cases taken
        exact .condTimeout waiting
      · cases taken
  | wake =>
      rw [step] at taken
      split at taken
      · rename_i waiting
        cases taken
        exact .wake waiting
      · cases taken
  | fetch =>
      rw [step] at taken
      split at taken
      · rename_i taking
        cases taken
        exact .through taking
      · rename_i curelem taking
        cases taken
        exact .fetch taking
      · cases taken
  | selectTimeout =>
      rw [step, sendPass] at taken
      split at taken
      · rename_i sending
        split at taken
        · rename_i more
          cases taken
          exact .selectTimeout sending more
        · cases taken
      · cases taken
  | send count =>
      rw [step, sendPass] at taken
      split at taken
      · rename_i sending
        split at taken
        · rename_i more
          dsimp only at taken
          split at taken
          · rename_i inRoom
            cases taken
            exact .send sending more inRoom
          · cases taken
        · cases taken
      · cases taken
  | sendFailed =>
      rw [step, sendPass] at taken
      split at taken
      · rename_i sending
        split at taken
        · rename_i more
          cases taken
          exact .sendFailed sending more
        · cases taken
      · cases taken
  | release =>
      rw [step] at taken
      split at taken
      · rename_i sending
        split at taken
        · rename_i through
          cases taken
          exact .release sending through
        · cases taken
      · cases taken

/-- The element that the callback is about to link is outside of both lists. -/
inductive CallbackAt
    (heap : Heap Buffer)
    (arrived : Nat)
    (items : List (Nat × Buffer)) :
    CallbackPc → Prop
  | outside : CallbackAt heap arrived items .outside
  | filled {rpt : Nat} {buf : Samples} :
      heap rpt = some ⟨⟨buf, arrived⟩, none⟩ →
      rpt ∉ addresses items →
      CallbackAt heap arrived items (.filled rpt)

/-- Giving back a cell of the lists does not touch the callback's element. -/
theorem CallbackAt.free
    {heap : Heap Buffer}
    {arrived address : Nat}
    {items fewer : List (Nat × Buffer)}
    {pc : CallbackPc}
    (callbackAt : CallbackAt heap arrived items pc)
    (member : address ∈ addresses items)
    (subset : addresses fewer ⊆ addresses items) :
    CallbackAt (LinkedCells.free heap address) arrived fewer pc := by
  cases callbackAt with
  | outside =>
      exact .outside
  | filled here outside =>
      apply CallbackAt.filled
      · rw [LinkedCells.free, Function.update_of_ne, here]
        rintro rfl
        exact outside member
      · exact fun inFewer => outside (subset inFewer)

/-- What is known of the element that the callback is about to link. -/
theorem CallbackAt.of_filled
    {heap : Heap Buffer}
    {arrived rpt : Nat}
    {items : List (Nat × Buffer)}
    {pc : CallbackPc}
    (callbackAt : CallbackAt heap arrived items pc)
    (filled : pc = .filled rpt) :
    rpt ∉ addresses items ∧
      ∃ buf, heap rpt = some ⟨⟨buf, arrived⟩, none⟩ := by
  cases callbackAt with
  | outside =>
      cases filled
  | filled here outside =>
      cases filled
      exact ⟨outside, _, here⟩

/-- The buffers as both threads hold them. -/
structure Held where
  /-- The numbers of the buffers that were sent. -/
  done : List Nat
  pointer : Option Nat
  /-- The buffers that the worker has taken and not yet released. -/
  detached : List (Nat × Buffer)
  /-- The shared list. -/
  queue : List (Nat × Buffer)
  /-- How many bytes of the worker's first buffer were sent. -/
  index : Nat

/-- The buffers that are still in memory, oldest first. -/
def Held.items (held : Held) : List (Nat × Buffer) :=
  held.detached ++ held.queue

/-- The bytes that were sent of the worker's first buffer. -/
def Held.part (held : Held) : List UInt8 :=
  match held.detached with
  | [] => []
  | first :: _ => first.2.data.bytes.take held.index

/-- Nothing was sent yet of a buffer that was not begun. -/
theorem Held.part_of_index
    {held : Held}
    (notBegun : held.index = 0) :
    held.part = [] := by
  rw [part, notBegun]
  cases held.detached with
  | nil =>
      rfl
  | cons first rest =>
      exact List.take_zero

/-- The lists in memory, the buffers they hold and the bytes sent so far. -/
structure Holds (server : Server) (held : Held) : Prop where
  sane : server.crashed = false
  limit : 0 ≤ server.llbufNum
  order :
    keptNumbers server.arrivals.length server.removed =
      held.done ++ numbers held.items
  bound : ∀ number ∈ server.removed, number < server.arrivals.length
  contents :
    ∀ item ∈ held.items,
      buffer server.arrivals item.2.number = item.2.data.bytes
  detachedChain : Chain server.heap held.pointer held.detached
  queueChain : Chain server.heap server.llBuffers held.queue
  distinct : (addresses held.items).Nodup
  workerAt : WorkerAt server.worker held.pointer held.detached held.index
  callbackAt :
    CallbackAt server.heap server.arrivals.length held.items server.callback
  accepted :
    server.accepted =
      held.done.flatMap (buffer server.arrivals) ++ held.part

/-- How many buffers the shared list holds behind an action. -/
def listAfter (llbufNum : Int) (count : Nat) : Action → Nat
  | .enqueue =>
      if llbufNum ≠ 0 ∧ llbufNum = (count : Int) - 3 then count else count + 1
  | .wake =>
      0
  | _ =>
      count

/-- A connection starts with nothing in memory. -/
theorem start_holds
    {llbufNum : Int}
    (nonneg : 0 ≤ llbufNum) :
    (start llbufNum).Holds ⟨[], none, [], [], 0⟩ where
  sane := rfl
  limit := nonneg
  order := rfl
  bound := nofun
  contents := nofun
  detachedChain := rfl
  queueChain := rfl
  distinct := List.nodup_nil
  workerAt := .top
  callbackAt := .outside
  accepted := rfl

namespace Holds

variable {server : Server} {held : Held}

/-- What was sent is the beginning of what should be sent. -/
theorem accepted_prefix (holds : server.Holds held) :
    server.accepted <+: server.keptBytes := by
  rw [holds.accepted, keptBytes, holds.order, List.flatMap_append]
  apply List.prefix_append_right_inj _ |>.mpr
  rw [Held.part, Held.items]
  cases detached : held.detached with
  | nil =>
      exact List.nil_prefix
  | cons first rest =>
      have firstData : buffer server.arrivals first.2.number =
          first.2.data.bytes :=
        holds.contents first (by simp [Held.items, detached])
      rw [List.cons_append, numbers, List.map_cons, List.flatMap_cons,
        firstData]
      exact (List.take_prefix _ _).trans (List.prefix_append _ _)

/-- Every number that is to be sent belongs to a buffer that arrived. -/
theorem number_lt
    (holds : server.Holds held)
    {number : Nat}
    (member : number ∈ held.done ++ numbers held.items) :
    number < server.arrivals.length := by
  rw [← holds.order] at member
  exact (mem_keptNumbers.mp member).1

/-- The cells of both lists are allocated. -/
theorem exists_cell
    (holds : server.Holds held)
    {address : Nat}
    (member : address ∈ addresses held.items) :
    ∃ cell, server.heap address = some cell := by
  rcases List.mem_map.mp member with ⟨item, inItems, rfl⟩
  rcases List.mem_append.mp inItems with inDetached | inQueue
  · rcases holds.detachedChain.exists_cell inDetached with ⟨next, here⟩
    exact ⟨_, here⟩
  · rcases holds.queueChain.exists_cell inQueue with ⟨next, here⟩
    exact ⟨_, here⟩

/-- The callback copies a buffer into a new element. -/
theorem copy
    (holds : server.Holds held)
    {rpt : Nat}
    (fresh : server.heap rpt = none)
    (buf : Samples) :
    Holds
      { server with
        heap :=
          Function.update server.heap rpt
            (some ⟨⟨buf, server.arrivals.length⟩, none⟩)
        callback := .filled rpt }
      held := by
  have outside : rpt ∉ addresses held.items := by
    intro member
    rcases holds.exists_cell member with ⟨cell, here⟩
    cases fresh.symm.trans here
  have outsideBoth := outside
  rw [Held.items, addresses_append, List.mem_append, not_or] at outsideBoth
  exact
    { sane := holds.sane
      limit := holds.limit
      order := holds.order
      bound := holds.bound
      contents := holds.contents
      detachedChain := holds.detachedChain.update outsideBoth.1 _
      queueChain := holds.queueChain.update outsideBoth.2 _
      distinct := holds.distinct
      workerAt := holds.workerAt
      callbackAt := .filled (Function.update_self _ _ _) outside
      accepted := holds.accepted }

/-- The oldest buffer of the shared list is dropped. -/
theorem dropHead
    (holds : server.Holds held)
    {head : Nat}
    {first : Buffer}
    {rest : List (Nat × Buffer)}
    (queue : held.queue = (head, first) :: rest) :
    (server.dropHead head).Holds { held with queue := rest } := by
  have chain := holds.queueChain
  rw [queue] at chain
  rcases chain.tail with ⟨next, here, restChain⟩
  have items : held.items = held.detached ++ (head, first) :: rest := by
    rw [Held.items, queue]
  have distinct := holds.distinct
  rw [items, addresses_append, List.nodup_append] at distinct
  rcases distinct with ⟨distinctDetached, distinctQueue, apart⟩
  rcases List.nodup_cons.mp distinctQueue with ⟨notInRest, distinctRest⟩
  have notDetached : head ∉ addresses held.detached := by
    intro member
    exact apart head member head List.mem_cons_self rfl
  have order := holds.order
  rw [items, numbers, List.map_append, List.map_cons, ← List.append_assoc]
    at order
  have subset :
      ∀ item ∈ held.detached ++ rest, item ∈ held.items := by
    intro item member
    rw [items]
    rcases List.mem_append.mp member with inDetached | inRest
    · exact List.mem_append_left _ inDetached
    · exact List.mem_append_right _ (List.mem_cons_of_mem _ inRest)
  rw [Server.dropHead, here]
  constructor
  · exact holds.sane
  · exact holds.limit
  · rw [keptNumbers_removal order]
    simp [Held.items, numbers]
  · intro number member
    rcases List.mem_append.mp member with before | isHead
    · exact holds.bound number before
    · rw [List.mem_singleton.mp isHead]
      apply holds.number_lt
      simp [items, numbers]
  · exact fun item member => holds.contents item (subset item member)
  · exact holds.detachedChain.update notDetached none
  · exact restChain.update notInRest none
  · rw [Held.items, addresses_append, List.nodup_append]
    exact ⟨distinctDetached, distinctRest,
      fun address inDetached other inRest =>
        apart address inDetached other (List.mem_cons_of_mem _ inRest)⟩
  · exact holds.workerAt
  · apply holds.callbackAt.free
    · simp [items, addresses]
    · exact List.map_subset _ subset
  · exact holds.accepted

/-- A buffer that arrived keeps its number when another one arrives. -/
theorem buffer_arrival
    {arrivals : List (List UInt8)}
    {number : Nat}
    (arrived : number < arrivals.length)
    (buf : List UInt8) :
    buffer (arrivals ++ [buf]) number = buffer arrivals number := by
  rw [buffer, buffer, List.getD_eq_getElem?_getD, List.getD_eq_getElem?_getD,
    List.getElem?_append_left arrived]

/-- The last buffer that arrived. -/
theorem buffer_last
    (arrivals : List (List UInt8))
    (buf : List UInt8) :
    buffer (arrivals ++ [buf]) arrivals.length = buf := by
  simp [buffer]

/-- A buffer arrives at the end of the shared list. -/
theorem arrive
    (holds : server.Holds held)
    {rpt : Nat}
    {buf : Samples}
    (outside : rpt ∉ addresses held.items)
    {linked : Server}
    (sane : linked.crashed = false)
    (limit : linked.llbufNum = server.llbufNum)
    (arrivals : linked.arrivals = server.arrivals ++ [buf.bytes])
    (removed : linked.removed = server.removed)
    (accepted : linked.accepted = server.accepted)
    (worker : linked.worker = server.worker)
    (callback : linked.callback = .outside)
    (detachedChain : Chain linked.heap held.pointer held.detached)
    (queueChain :
      Chain linked.heap linked.llBuffers
        (held.queue ++ [(rpt, ⟨buf, server.arrivals.length⟩)])) :
    linked.Holds
      { held with
        queue := held.queue ++ [(rpt, ⟨buf, server.arrivals.length⟩)] } := by
  have same :
      ∀ number ∈ held.done ++ numbers held.items,
        buffer linked.arrivals number = buffer server.arrivals number := by
    intro number member
    rw [arrivals, buffer_arrival (holds.number_lt member)]
  have length : linked.arrivals.length = server.arrivals.length + 1 := by
    rw [arrivals, List.length_append]
    rfl
  constructor
  · exact sane
  · rw [limit]
    exact holds.limit
  · rw [length, removed, keptNumbers_arrival holds.bound, holds.order]
    simp [Held.items, numbers]
  · rw [length, removed]
    exact fun number member => Nat.lt_succ_of_lt (holds.bound number member)
  · intro item member
    rw [Held.items, ← List.append_assoc] at member
    rcases List.mem_append.mp member with before | isNew
    · rw [same _ (List.mem_append_right _ (List.mem_map_of_mem before))]
      exact holds.contents item before
    · rw [List.mem_singleton.mp isNew, arrivals, buffer_last]
  · exact detachedChain
  · exact queueChain
  · rw [Held.items, ← List.append_assoc, addresses_append,
      List.nodup_append]
    refine ⟨holds.distinct, by simp [addresses], ?_⟩
    rintro address member other isNew rfl
    have isRpt : address = rpt := List.mem_singleton.mp isNew
    exact outside (isRpt ▸ member)
  · rw [worker]
    exact holds.workerAt
  · rw [callback]
    exact .outside
  · rw [accepted, holds.accepted]
    congr 1
    apply List.flatMap_congr
    exact fun number member => (same number (List.mem_append_left _ member)).symm

/-- No pointer leads to no list. -/
theorem queue_of_none
    (holds : server.Holds held)
    (empty : server.llBuffers = none) :
    held.queue = [] := by
  have chain := holds.queueChain
  rw [empty] at chain
  cases queue : held.queue with
  | nil =>
      rfl
  | cons first rest =>
      rw [queue] at chain
      cases chain.1

/-- The first buffer of the shared list. -/
theorem arriveFirst
    (holds : server.Holds held)
    {rpt : Nat}
    {buf : Samples}
    (here : server.heap rpt = some ⟨⟨buf, server.arrivals.length⟩, none⟩)
    (outside : rpt ∉ addresses held.items)
    (empty : server.llBuffers = none) :
    Holds
      { server with
        llBuffers := some rpt
        callback := .outside
        arrivals := server.arrivals ++ [buf.bytes] }
      { held with
        queue := held.queue ++ [(rpt, ⟨buf, server.arrivals.length⟩)] } := by
  refine holds.arrive outside ?_ rfl rfl rfl rfl rfl rfl ?_ ?_
  · exact holds.sane
  · exact holds.detachedChain
  · rw [holds.queue_of_none empty]
    exact ⟨rfl, none, here, rfl⟩

/-- A buffer is linked behind the last one of the shared list. -/
theorem arriveBehind
    (holds : server.Holds held)
    {rpt cur : Nat}
    {buf : Samples}
    {earlier : List (Nat × Buffer)}
    {last : Buffer}
    (here : server.heap rpt = some ⟨⟨buf, server.arrivals.length⟩, none⟩)
    (outside : rpt ∉ addresses held.items)
    (queue : held.queue = earlier ++ [(cur, last)])
    (numQueued : Nat) :
    Holds
      { server.link cur rpt numQueued with
        callback := .outside
        arrivals := server.arrivals ++ [buf.bytes] }
      { held with
        queue := held.queue ++ [(rpt, ⟨buf, server.arrivals.length⟩)] } := by
  have chain := holds.queueChain
  have distinct := holds.distinct
  have outsideQueue := outside
  rw [Held.items, addresses_append, List.mem_append, not_or] at outsideQueue
  rw [Held.items, addresses_append, List.nodup_append] at distinct
  rw [queue] at chain distinct outsideQueue
  rcases distinct with ⟨_, distinctQueue, apart⟩
  rcases chain.append distinctQueue outsideQueue.2 here with
    ⟨heap, stored, linkedChain, kept⟩
  have linked :
      server.link cur rpt numQueued =
        { server with heap := heap, globalNumq := numQueued } := by
    rw [link, stored]
  have detachedChain : Chain heap held.pointer held.detached := by
    apply holds.detachedChain.congr
    intro address member
    apply kept
    rintro rfl
    exact apart address member address (by simp [addresses]) rfl
  rw [linked]
  refine holds.arrive outside ?_ rfl rfl rfl rfl rfl rfl ?_ ?_
  · exact holds.sane
  · exact detachedChain
  · rw [queue]
    exact linkedChain

/-- There are not more buffers in the shared list than have arrived. -/
theorem length_queue_le (holds : server.Holds held) :
    held.queue.length ≤ server.arrivals.length := by
  have kept :
      (held.done ++ numbers held.items).length ≤ server.arrivals.length := by
    rw [← holds.order, keptNumbers]
    exact (List.length_filter_le _ _).trans (Nat.le_of_eq List.length_range)
  simp only [Held.items, numbers, List.length_append, List.length_map] at kept
  omega

/-- The last element of the shared list is found. -/
theorem findLast_queue
    (holds : server.Holds held)
    {head : Nat}
    (starts : server.llBuffers = some head) :
    ∃ earlier cur last,
      held.queue = earlier ++ [(cur, last)] ∧
        findLast server.heap server.arrivals.length head 0 =
          some (cur, earlier.length) := by
  have chain := holds.queueChain
  rw [starts] at chain
  rcases List.eq_nil_or_concat held.queue with
    isEmpty | ⟨earlier, ⟨cur, last⟩, queue⟩
  · rw [isEmpty] at chain
    cases chain
  · rw [List.concat_eq_append] at queue
    have enough : earlier.length < server.arrivals.length := by
      have within := holds.length_queue_le
      rw [queue, List.length_append] at within
      exact within
    rw [queue] at chain
    refine ⟨earlier, cur, last, queue, ?_⟩
    rw [chain.findLast enough 0, Nat.zero_add]

/-- The oldest buffer of a list that the callback finds too long is not its last one. -/
theorem exists_between
    {items : List (Nat × Buffer)}
    {earlier : List (Nat × Buffer)}
    {final : Nat × Buffer}
    {llbufNum : Int}
    (queue : items = earlier ++ [final])
    (nonneg : 0 ≤ llbufNum)
    (full : llbufNum = (earlier.length : Int) - 2) :
    ∃ head first between,
      items = (head, first) :: (between ++ [final]) := by
  cases earlier with
  | nil =>
      rw [full] at nonneg
      exact absurd nonneg (by decide)
  | cons oldest between =>
      exact ⟨oldest.1, oldest.2, between, queue⟩

/-- Another place of the worker with the same buffers. -/
theorem moveWorker
    (holds : server.Holds held)
    {doExit : Bool}
    {worker : WorkerPc}
    (workerAt : WorkerAt worker held.pointer held.detached held.index) :
    Holds { server with doExit := doExit, worker := worker } held where
  sane := holds.sane
  limit := holds.limit
  order := holds.order
  bound := holds.bound
  contents := holds.contents
  detachedChain := holds.detachedChain
  queueChain := holds.queueChain
  distinct := holds.distinct
  workerAt := workerAt
  callbackAt := holds.callbackAt
  accepted := holds.accepted

/-- The worker leaves, whatever it holds. -/
theorem bye (holds : server.Holds held) :
    server.bye.Holds held :=
  holds.moveWorker (.exited held.pointer held.detached held.index)

/-- The worker takes the shared list. -/
theorem wake
    (holds : server.Holds held)
    (waiting : server.worker = .waiting) :
    Holds
      { server with
        worker := .taking server.llBuffers
        llBuffers := none }
      { held with
        pointer := server.llBuffers
        detached := held.queue
        queue := [] } := by
  rcases holds.workerAt.of_idle (.inr waiting) with ⟨_, noneHeld, noProgress⟩
  have items : held.queue ++ [] = held.items := by
    rw [Held.items, noneHeld, List.nil_append, List.append_nil]
  constructor
  · exact holds.sane
  · exact holds.limit
  · rw [Held.items, items]
    exact holds.order
  · exact holds.bound
  · rw [Held.items, items]
    exact holds.contents
  · exact holds.queueChain
  · exact chain_nil
  · rw [Held.items, items]
    exact holds.distinct
  · rw [noProgress]
    exact .taking server.llBuffers held.queue
  · rw [Held.items, items]
    exact holds.callbackAt
  · refine holds.accepted.trans ?_
    rw [Held.part_of_index noProgress]
    congr 1
    apply Eq.symm
    apply Held.part_of_index
    exact noProgress

/-- The worker is through with the list it has taken. -/
theorem fetchNone
    (holds : server.Holds held)
    (taking : server.worker = .taking none) :
    Holds { server with worker := .top } held := by
  rcases holds.workerAt.of_taking taking with ⟨noPointer, noProgress⟩
  have chain := holds.detachedChain
  rw [noPointer] at chain
  apply holds.moveWorker
  rw [noPointer, noProgress]
  cases detached : held.detached with
  | nil =>
      exact .top
  | cons first rest =>
      rw [detached] at chain
      cases chain.1

/-- The worker starts with its next buffer. -/
theorem fetch
    (holds : server.Holds held)
    {curelem : Nat}
    (taking : server.worker = .taking (some curelem)) :
    (server.fetch curelem).Holds held := by
  rcases holds.workerAt.of_taking taking with ⟨pointer, noProgress⟩
  have chain := holds.detachedChain
  rw [pointer] at chain
  cases detached : held.detached with
  | nil =>
      rw [detached] at chain
      cases chain
  | cons first rest =>
      rw [detached] at chain
      rcases chain with ⟨isFirst, next, here, _⟩
      cases Option.some.inj isFirst
      rw [Server.fetch, here]
      apply holds.moveWorker
      rw [pointer, detached, noProgress]
      exact .sending (Int.sub_zero _).symm (Nat.zero_le _) (fun _ => rfl)
        (by decide)

/-- The worker tests the outcome of its last call and goes on or leaves. -/
theorem afterSend
    (holds : server.Holds held)
    {curelem : Nat}
    {bytesleft index bytessent : Int}
    (workerAt :
      bytessent ≠ -1 →
      WorkerAt (.sending curelem bytesleft index bytessent) held.pointer
        held.detached held.index) :
    (server.afterSend curelem bytesleft index bytessent).Holds held := by
  rw [Server.afterSend]
  split
  · exact holds.bye
  · rename_i goesOn
    exact holds.moveWorker (workerAt fun failed => goesOn (.inl failed))

/-- The socket accepts a part of the worker's buffer. -/
theorem send
    (holds : server.Holds held)
    {curelem count : Nat}
    {bytesleft index bytessent : Int}
    (sending : server.worker = .sending curelem bytesleft index bytessent)
    (more : 0 < bytesleft)
    (inRoom : (count : Int) ≤ bytesleft) :
    (server.send curelem bytesleft index count).Holds
      { held with index := held.index + count } := by
  rcases holds.workerAt.of_sending sending with
    ⟨first, rest, pointer, detached, isIndex, left, inside, _, _⟩
  have chain := holds.detachedChain
  rw [pointer, detached] at chain
  rcases chain with ⟨isFirst, next, here, _⟩
  cases Option.some.inj isFirst
  -- a buffer of which something is left is within the range of `int`
  have short := first.2.data.bmod_length (by omega)
  rw [short] at left
  have within : held.index + count ≤ first.2.data.bytes.length := by
    omega
  rw [Server.send, here]
  dsimp only
  rw [if_pos (by omega)]
  have sent :
      Holds
        { server with
          accepted :=
            server.accepted ++
              (first.2.data.bytes.drop index.toNat).take count
          worker := .exited }
        { held with index := held.index + count } := by
    constructor
    · exact holds.sane
    · exact holds.limit
    · exact holds.order
    · exact holds.bound
    · exact holds.contents
    · exact holds.detachedChain
    · exact holds.queueChain
    · exact holds.distinct
    · exact .exited _ _ _
    · exact holds.callbackAt
    · have grown :
          Held.part { held with index := held.index + count } =
            held.part ++ (first.2.data.bytes.drop held.index).take count := by
        rw [Held.part, Held.part, detached]
        exact List.take_add
      rw [grown, ← List.append_assoc, ← holds.accepted, isIndex,
        Int.toNat_natCast]
  rw [Server.afterSend]
  split
  · exact sent.bye
  · rename_i goesOn
    refine sent.moveWorker ?_
    rw [pointer, detached, isIndex, ← Int.natCast_add]
    refine .sending ?_ within ?_ ?_
    · rw [short]
      omega
    · intro negative
      omega
    · exact fun failed => goesOn (.inl failed)

/-- The worker's first buffer is freed, with the outcome that is recorded for it. -/
theorem freeFirst
    (holds : server.Holds held)
    {first : Nat × Buffer}
    {rest : List (Nat × Buffer)}
    {next : Option Nat}
    {done removed : List Nat}
    (detached : held.detached = first :: rest)
    (restChain : Chain server.heap next rest)
    (order :
      keptNumbers server.arrivals.length removed =
        done ++ numbers (rest ++ held.queue))
    (bound : ∀ number ∈ removed, number < server.arrivals.length)
    (accepted : server.accepted = done.flatMap (buffer server.arrivals)) :
    Holds
      { server with
        heap := free server.heap first.1
        worker := .taking next
        removed := removed }
      ⟨done, next, rest, held.queue, 0⟩ := by
  have items : held.items = first :: (rest ++ held.queue) := by
    rw [Held.items, detached]
    rfl
  have distinct := holds.distinct
  rw [items] at distinct
  rcases List.nodup_cons.mp distinct with ⟨notLater, distinctLater⟩
  rw [← addresses, addresses_append, List.mem_append, not_or] at notLater
  have subset : ∀ item ∈ rest ++ held.queue, item ∈ held.items := by
    intro item member
    rw [items]
    exact List.mem_cons_of_mem _ member
  have member : first.1 ∈ addresses held.items := by
    simp [items, addresses]
  constructor
  · exact holds.sane
  · exact holds.limit
  · exact order
  · exact bound
  · exact fun item inItems => holds.contents item (subset item inItems)
  · exact restChain.update notLater.1 none
  · exact holds.queueChain.update notLater.2 none
  · exact distinctLater
  · exact .taking next rest
  · exact holds.callbackAt.free member (List.map_subset _ subset)
  · rw [Held.part_of_index rfl, List.append_nil]
    exact accepted

/-- A buffer that was sent as a whole, or skipped, is freed. -/
theorem release
    (holds : server.Holds held)
    {curelem : Nat}
    {bytesleft index bytessent : Int}
    (sending : server.worker = .sending curelem bytesleft index bytessent)
    (through : bytesleft ≤ 0) :
    ∃ next,
      (server.release curelem bytesleft).Holds next ∧ next.queue = held.queue := by
  rcases holds.workerAt.of_sending sending with
    ⟨first, rest, pointer, detached, _, left, inside, skipped, _⟩
  have chain := holds.detachedChain
  rw [pointer, detached] at chain
  rcases chain with ⟨isFirst, next, here, restChain⟩
  cases Option.some.inj isFirst
  have order := holds.order
  rw [Held.items, detached, List.cons_append, numbers, List.map_cons] at order
  rw [Server.release, here]
  dsimp only
  by_cases negative : bytesleft < 0
  · -- nothing was sent of the buffer, and its number is recorded as removed
    have unsent := Held.part_of_index (skipped negative)
    have accepted := holds.accepted
    rw [unsent, List.append_nil] at accepted
    rw [if_pos negative]
    refine ⟨_, holds.freeFirst detached restChain (keptNumbers_removal order) ?_
      accepted, rfl⟩
    intro number inRemoved
    rcases List.mem_append.mp inRemoved with before | isFirstNumber
    · exact holds.bound number before
    · rw [List.mem_singleton.mp isFirstNumber]
      apply holds.number_lt
      simp [Held.items, detached, numbers]
  · have short := first.2.data.bmod_length (by omega)
    have whole : held.index = first.2.data.bytes.length := by
      omega
    have all : held.part = first.2.data.bytes := by
      rw [Held.part, detached, whole]
      exact List.take_length
    have firstData := holds.contents first (by simp [Held.items, detached])
    have accepted := holds.accepted
    rw [all, ← firstData, ← List.flatMap_singleton (buffer server.arrivals),
      ← List.flatMap_append] at accepted
    rw [if_neg negative]
    refine ⟨_, holds.freeFirst detached restChain ?_ holds.bound accepted, rfl⟩
    rw [order, List.append_assoc]
    rfl

/-- The critical section of the callback. -/
theorem enqueue
    (holds : server.Holds held)
    {rpt : Nat}
    (filled : server.callback = .filled rpt) :
    ∃ next,
      (server.enqueue rpt).Holds next ∧
        next.queue.length =
          listAfter server.llbufNum held.queue.length .enqueue := by
  rcases holds.callbackAt.of_filled filled with ⟨outside, buf, here⟩
  rw [Server.enqueue, here, Server.append]
  dsimp only
  cases starts : server.llBuffers with
  | none =>
      have arrived := holds.arriveFirst here outside starts
      have notFull : ¬ (server.llbufNum ≠ 0 ∧
          server.llbufNum = (held.queue.length : Int) - 3) := by
        have limit := holds.limit
        have empty : held.queue.length = 0 :=
          congrArg List.length (holds.queue_of_none starts)
        omega
      refine ⟨_, arrived, ?_⟩
      rw [listAfter, if_neg notFull, List.length_append]
      rfl
  | some head =>
      rcases holds.findLast_queue starts with
        ⟨earlier, cur, last, queue, found⟩
      have length : held.queue.length = earlier.length + 1 := by
        rw [queue, List.length_append]
        rfl
      dsimp only
      rw [found]
      dsimp only
      split
      · rename_i full
        rcases exists_between queue holds.limit full.2 with
          ⟨oldest, first, between, split⟩
        have chain := holds.queueChain
        rw [starts, split] at chain
        cases Option.some.inj chain.1
        rcases chain.tail with ⟨second, hereOldest, _⟩
        have dropped := holds.dropHead split
        rw [Server.dropHead, hereOldest] at dropped ⊢
        have notOldest : rpt ≠ head := by
          rintro rfl
          apply outside
          simp [Held.items, split, addresses]
        have stillHere :
            free server.heap head rpt =
              some ⟨⟨buf, server.arrivals.length⟩, none⟩ := by
          rw [LinkedCells.free, Function.update_of_ne notOldest, here]
        have stillOutside :=
          (dropped.callbackAt.of_filled filled).1
        refine ⟨_, dropped.arriveBehind stillHere stillOutside rfl
          earlier.length, ?_⟩
        rw [listAfter, if_pos ⟨full.1, by rw [length]; omega⟩]
        rw [split]
        simp
      · rename_i notFull
        refine ⟨_, holds.arriveBehind here outside queue earlier.length, ?_⟩
        have roomLeft : ¬ (server.llbufNum ≠ 0 ∧
            server.llbufNum = (held.queue.length : Int) - 3) := by
          rw [length]
          rintro ⟨limited, full⟩
          exact notFull ⟨limited, by omega⟩
        rw [listAfter, if_neg roomLeft, List.length_append]
        rfl

/-- One step of either thread keeps the lists in memory, and counts the shared one. -/
theorem step
    (holds : server.Holds held)
    {action : Action}
    {next : Server}
    (taken : server.step action = some next) :
    ∃ after,
      next.Holds after ∧
        after.queue.length = listAfter server.llbufNum held.queue.length action := by
  cases step_cases taken with
  | copy buf _ _ fresh =>
      exact ⟨held, holds.copy fresh buf, rfl⟩
  | enqueue filled =>
      exact holds.enqueue filled
  | requestExit =>
      exact ⟨held, holds.moveWorker holds.workerAt, rfl⟩
  | leave =>
      exact ⟨held, holds.moveWorker (.exited _ _ _), rfl⟩
  | wait top =>
      rcases holds.workerAt.of_idle (.inl top) with
        ⟨noPointer, noneHeld, noProgress⟩
      refine ⟨held, holds.moveWorker ?_, rfl⟩
      rw [noPointer, noneHeld, noProgress]
      exact .waiting
  | condTimeout =>
      exact ⟨held, holds.bye, rfl⟩
  | wake waiting =>
      exact ⟨_, holds.wake waiting, rfl⟩
  | through taking =>
      exact ⟨held, holds.fetchNone taking, rfl⟩
  | fetch taking =>
      exact ⟨held, holds.fetch taking, rfl⟩
  | selectTimeout sending =>
      refine ⟨held, holds.afterSend fun _ => ?_, rfl⟩
      rw [← sending]
      exact holds.workerAt
  | send sending more inRoom =>
      exact ⟨_, holds.send sending more inRoom, rfl⟩
  | sendFailed =>
      exact ⟨held, holds.afterSend fun succeeded => absurd rfl succeeded, rfl⟩
  | release sending through =>
      rcases holds.release sending through with ⟨after, released, same⟩
      exact ⟨after, released, congrArg List.length same⟩

end Holds

/-! ## What is taken out -/

/-- The number of the first buffer of a list; all others of the list arrived later. -/
def OldestOf
    (server : Server)
    (pointer : Option Nat)
    (number : Nat) : Prop :=
  ∃ address first rest,
    Chain server.heap pointer ((address, first) :: rest) ∧
      first.number = number ∧
      ∀ item ∈ rest, number < item.2.number

/-- A step takes out nothing, or the oldest buffer of the shared list or of the worker's list. -/
def RemovesOldest (server next : Server) : Prop :=
  next.removed = server.removed ∨
    ∃ number,
      next.removed = server.removed ++ [number] ∧
        (server.OldestOf server.llBuffers number ∨
          ∃ curelem bytesleft index bytessent,
            server.worker = .sending curelem bytesleft index bytessent ∧
              server.OldestOf (some curelem) number)

@[simp] theorem link_removed (server : Server) (cur rpt numQueued : Nat) :
    (server.link cur rpt numQueued).removed = server.removed := by
  rw [link]
  split <;> rfl

@[simp] theorem fetch_removed (server : Server) (curelem : Nat) :
    (server.fetch curelem).removed = server.removed := by
  rw [fetch]
  split <;> rfl

@[simp] theorem afterSend_removed
    (server : Server)
    (curelem : Nat)
    (bytesleft index bytessent : Int) :
    (server.afterSend curelem bytesleft index bytessent).removed =
      server.removed := by
  rw [afterSend]
  split <;> rfl

@[simp] theorem send_removed
    (server : Server)
    (curelem : Nat)
    (bytesleft index : Int)
    (count : Nat) :
    (server.send curelem bytesleft index count).removed =
      server.removed := by
  rw [send]
  split
  · rfl
  · split
    · rw [afterSend_removed]
    · rfl

namespace Holds

variable {server : Server} {held : Held}

/-- The buffers in memory are in the order of their arrival. -/
theorem sorted (holds : server.Holds held) :
    held.items.Pairwise fun first second =>
      first.2.number < second.2.number := by
  have sorted :=
    keptNumbers_sorted server.arrivals.length server.removed
  rw [holds.order, List.pairwise_append] at sorted
  exact List.pairwise_map.mp sorted.2.1

/-- The head of the shared list is its oldest buffer. -/
theorem oldestOf_queue
    (holds : server.Holds held)
    {address : Nat}
    {first : Buffer}
    {rest : List (Nat × Buffer)}
    (queue : held.queue = (address, first) :: rest) :
    server.OldestOf server.llBuffers first.number := by
  have sorted := holds.sorted
  rw [Held.items, queue, List.pairwise_append, List.pairwise_cons] at sorted
  exact ⟨address, first, rest, queue ▸ holds.queueChain, rfl, sorted.2.1.1⟩

/-- The worker's current buffer is the oldest one of its list. -/
theorem oldestOf_detached
    (holds : server.Holds held)
    {first : Nat × Buffer}
    {rest : List (Nat × Buffer)}
    (detached : held.detached = first :: rest) :
    server.OldestOf held.pointer first.2.number := by
  have sorted := holds.sorted
  rw [Held.items, detached, List.pairwise_append, List.pairwise_cons]
    at sorted
  exact ⟨first.1, first.2, rest, detached ▸ holds.detachedChain, rfl,
    sorted.1.1⟩

/-- The callback takes out the head of the shared list or nothing. -/
theorem enqueue_removesOldest
    (holds : server.Holds held)
    {rpt : Nat}
    (filled : server.callback = .filled rpt) :
    server.RemovesOldest (server.enqueue rpt) := by
  rcases holds.callbackAt.of_filled filled with ⟨_, buf, here⟩
  rw [Server.enqueue, here, Server.append]
  dsimp only
  cases starts : server.llBuffers with
  | none =>
      exact .inl rfl
  | some head =>
      rcases holds.findLast_queue starts with
        ⟨earlier, cur, last, queue, found⟩
      dsimp only
      rw [found]
      dsimp only
      split
      · rename_i full
        rcases exists_between queue holds.limit full.2 with
          ⟨oldest, first, between, split⟩
        have chain := holds.queueChain
        rw [starts, split] at chain
        cases Option.some.inj chain.1
        rcases chain.tail with ⟨second, hereOldest, _⟩
        refine .inr ⟨first.number, ?_, .inl (holds.oldestOf_queue split)⟩
        rw [link_removed, Server.dropHead, hereOldest]
      · refine .inl ?_
        rw [link_removed]

/-- The worker takes out its current buffer or nothing. -/
theorem release_removesOldest
    (holds : server.Holds held)
    {curelem : Nat}
    {bytesleft index bytessent : Int}
    (sending : server.worker = .sending curelem bytesleft index bytessent) :
    server.RemovesOldest (server.release curelem bytesleft) := by
  rcases holds.workerAt.of_sending sending with
    ⟨first, rest, pointer, detached, _⟩
  have chain := holds.detachedChain
  rw [pointer, detached] at chain
  rcases chain with ⟨isFirst, next, here, _⟩
  have oldest := holds.oldestOf_detached detached
  rw [pointer] at oldest
  cases Option.some.inj isFirst
  rw [Server.release, here]
  by_cases negative : bytesleft < 0
  · refine .inr ⟨first.2.number, ?_, .inr ⟨_, _, _, _, sending, oldest⟩⟩
    exact if_pos negative
  · exact .inl (if_neg negative)

/-- Every step takes out the oldest buffer of a list or nothing. -/
theorem step_removesOldest
    (holds : server.Holds held)
    {action : Action}
    {next : Server}
    (taken : server.step action = some next) :
    server.RemovesOldest next := by
  cases step_cases taken with
  | enqueue filled =>
      exact holds.enqueue_removesOldest filled
  | release sending =>
      exact holds.release_removesOldest sending
  | fetch =>
      exact .inl (fetch_removed server _)
  | selectTimeout =>
      exact .inl (afterSend_removed server _ _ _ _)
  | send =>
      exact .inl (send_removed server _ _ _ _)
  | sendFailed =>
      exact .inl (afterSend_removed server _ _ _ _)
  | _ =>
      -- the other actions leave the list of removed buffers alone
      exact .inl rfl

end Holds

/-- The lists stay in memory along every run. -/
theorem holds_run
    {llbufNum : Int}
    (nonneg : 0 ≤ llbufNum)
    {actions : List Action}
    {server : Server}
    (reached : run step (start llbufNum) actions = some server) :
    ∃ held, server.Holds held := by
  apply invariant (fun server => ∃ held, server.Holds held) ?_
    ⟨_, start_holds nonneg⟩ reached
  rintro state action next ⟨held, holds⟩ taken
  rcases holds.step taken with ⟨after, holdsAfter, _⟩
  exact ⟨after, holdsAfter⟩

/--
Along every run no freed memory is touched, the socket has accepted a beginning
of the buffers that arrived without the removed ones, and every step that takes
out a buffer takes the oldest one.
-/
theorem stream_in_order
    (llbufNum : Int)
    (nonneg : 0 ≤ llbufNum)
    (actions : List Action) :
    EveryState step
        (fun server =>
          server.crashed = false ∧ server.accepted <+: server.keptBytes)
        (start llbufNum) actions ∧
      EveryStep step
        (fun server action =>
          ∀ next, server.step action = some next →
            server.RemovesOldest next)
        (start llbufNum) actions := by
  constructor
  · intro earlier later server split reached
    rcases holds_run nonneg reached with ⟨held, holds⟩
    exact ⟨holds.sane, holds.accepted_prefix⟩
  · intro earlier action later server next split reached _ after taken
    rcases holds_run nonneg reached with ⟨held, holds⟩
    exact holds.step_removesOldest taken

/-- A buffer of one byte. -/
def oneByte (byte : UInt8) : Samples :=
  ⟨[byte], by rw [List.length_singleton]; decide⟩

/-- Five buffers arrive before the worker wakes up, one more than the list keeps. -/
def overflowActions : List Action :=
  [.loop,
    .copy 1 (oneByte 10), .enqueue, .copy 2 (oneByte 20), .enqueue,
    .copy 3 (oneByte 30), .enqueue, .copy 4 (oneByte 40), .enqueue,
    .copy 5 (oneByte 50), .enqueue,
    .wake, .fetch, .selectTimeout, .send 1, .release,
    .fetch, .send 1]

/-- The oldest buffer is dropped and the next ones are sent. -/
theorem stream_in_order_overflow :
    (run step (start 1) overflowActions).map
        (fun server => (server.accepted, server.removed)) =
      some ([20, 30], [0]) ∧
    EveryState step
        (fun server =>
          server.crashed = false ∧ server.accepted <+: server.keptBytes)
        (start 1) overflowActions ∧
      EveryStep step
        (fun server action =>
          ∀ next, server.step action = some next →
            server.RemovesOldest next)
        (start 1) overflowActions :=
  ⟨by decide +kernel, stream_in_order 1 (by decide) overflowActions⟩

end Server

end LibRtlSdr.RtlTcp
