import LibRtlSdr.PartialRun
import LibRtlSdr.ReadAsync

namespace LibRtlSdr.RtlTcp

open PartialRun (CanReach run)
open ReadAsync (AsyncStatus)

/-!
# The sessions of `rtl_tcp`

`main` serves one client after the other.  It starts a thread that sends and one that
receives, reads from the device until `rtlsdr_cancel_async` ends that, and joins both
threads before it listens again.  A thread that is through with its client calls
`sighandler`, which cancels first and sets `do_exit` then.  What the threads send and
receive is left out here; what `select`, `send`, `recv` and the wait bring is part of the
step.
-/

/-! ## Source -/

/-- Where `main` stands. -/
inductive MainPc where
  | listening
  /-- Behind `accept`; the client is sent the dongle information. -/
  | accepted
  /-- Behind the first `pthread_create`. -/
  | sendingStarted
  /-- Behind the second one, before `rtlsdr_read_async`. -/
  | threadsStarted
  | reading
  | joiningWorker
  | joiningCommand
  /-- Behind both joins. -/
  | joined
  | left
deriving DecidableEq

/-- Where `tcp_worker` stands; where there is no thread it has exited. -/
inductive TcpWorkerPc where
  | top
  | waiting
  | sending
  | cancelling
  | flagging
  | exited
deriving DecidableEq

/-- Where `command_worker` stands. -/
inductive CommandPc where
  | receiving
  | cancelling
  | flagging
  | exited
deriving DecidableEq

/-- Where the handler of a signal stands. -/
inductive HandlerPc where
  | idle
  | cancelling
  | flagging
deriving DecidableEq

/-- What the threads share, and where they stand. -/
structure Sessions where
  main : MainPc
  worker : TcpWorkerPc
  command : CommandPc
  handler : HandlerPc
  asyncStatus : AsyncStatus
  doExit : Bool
deriving DecidableEq

/-- The steps of the threads, with what the system calls bring. -/
inductive SessionAction where
  /-- The `select` of the listening loop. -/
  | listen (client : Bool)
  | createWorker
  | createCommand
  | readAsync
  /-- The reading ends; a transfer that could not be cancelled leaves its status. -/
  | readReturns (idle : Bool)
  /-- The device is lost, or handling its events fails. -/
  | deviceFails
  | joinWorker
  | joinCommand
  /-- The list is freed, and `do_exit` cleared. -/
  | clear
  | workerLoops
  | workerWakes
  | workerTimesOut
  | workerSelects (failed : Bool)
  /-- All buffers that were taken are sent. -/
  | workerSent
  | workerCancels
  | workerFlags
  | commandReceives (failed : Bool)
  | commandCancels
  | commandFlags
  | signal
  | handlerCancels
  | handlerFlags
deriving DecidableEq

namespace Sessions

/-- Before the first client. -/
def start : Sessions :=
  { main := .listening
    worker := .exited
    command := .exited
    handler := .idle
    asyncStatus := .inactive
    doExit := false }

/-- `rtlsdr_cancel_async`. -/
def cancelled (status : AsyncStatus) : AsyncStatus :=
  if status = .running then .canceling else status

/-- `if(do_exit)`, and the accepting of a client. -/
def listen (s : Sessions) (client : Bool) : MainPc :=
  if s.doExit then .left else if client then .accepted else .listening

/-- The head of the loop of `tcp_worker`. -/
def workerLoops (s : Sessions) : TcpWorkerPc :=
  if s.doExit then .exited else .waiting

/-- One step of one of the threads. -/
def step (s : Sessions) : SessionAction → Option Sessions
  | .listen client =>
      if s.main = .listening then some { s with main := s.listen client } else none
  | .createWorker =>
      if s.main = .accepted then
        some { s with main := .sendingStarted, worker := .top }
      else
        none
  | .createCommand =>
      if s.main = .sendingStarted then
        some { s with main := .threadsStarted, command := .receiving }
      else
        none
  | .readAsync =>
      if s.main = .threadsStarted then
        if s.asyncStatus = .inactive then
          some { s with main := .reading, asyncStatus := .running }
        else
          some { s with main := .joiningWorker }
      else
        none
  | .readReturns idle =>
      if s.main = .reading ∧ s.asyncStatus = .canceling then
        some
          { s with
            main := .joiningWorker
            asyncStatus := if idle then .inactive else .canceling }
      else
        none
  | .deviceFails =>
      if s.main = .reading then some { s with asyncStatus := .canceling } else none
  | .joinWorker =>
      if s.main = .joiningWorker ∧ s.worker = .exited then
        some { s with main := .joiningCommand }
      else
        none
  | .joinCommand =>
      if s.main = .joiningCommand ∧ s.command = .exited then
        some { s with main := .joined }
      else
        none
  | .clear =>
      if s.main = .joined then
        some { s with main := .listening, doExit := false }
      else
        none
  | .workerLoops =>
      if s.worker = .top then some { s with worker := s.workerLoops } else none
  | .workerWakes =>
      if s.worker = .waiting then some { s with worker := .sending } else none
  | .workerTimesOut =>
      if s.worker = .waiting then some { s with worker := .cancelling } else none
  | .workerSelects failed =>
      if s.worker = .sending then
        some { s with worker := if failed ∨ s.doExit then .cancelling else .sending }
      else
        none
  | .workerSent =>
      if s.worker = .sending then some { s with worker := .top } else none
  | .workerCancels =>
      if s.worker = .cancelling then
        some { s with worker := .flagging, asyncStatus := cancelled s.asyncStatus }
      else
        none
  | .workerFlags =>
      if s.worker = .flagging then
        some { s with worker := .exited, doExit := true }
      else
        none
  | .commandReceives failed =>
      if s.command = .receiving then
        some { s with command := if failed ∨ s.doExit then .cancelling else .receiving }
      else
        none
  | .commandCancels =>
      if s.command = .cancelling then
        some { s with command := .flagging, asyncStatus := cancelled s.asyncStatus }
      else
        none
  | .commandFlags =>
      if s.command = .flagging then
        some { s with command := .exited, doExit := true }
      else
        none
  | .signal =>
      if s.handler = .idle then some { s with handler := .cancelling } else none
  | .handlerCancels =>
      if s.handler = .cancelling then
        some { s with handler := .flagging, asyncStatus := cancelled s.asyncStatus }
      else
        none
  | .handlerFlags =>
      if s.handler = .flagging then
        some { s with handler := .idle, doExit := true }
      else
        none

end Sessions

/-! ## Sessions that cannot end -/

/-- The steps that the program makes by itself, while the device works. -/
def SessionAction.Own (action : SessionAction) : Prop :=
  action ≠ .signal ∧ action ≠ .deviceFails

namespace Sessions

/-- `main` listens for the next client. -/
def Listening (s : Sessions) : Prop :=
  s.main = .listening

/-- `tcp_worker` will not call `rtlsdr_cancel_async` any more. -/
def WorkerSpent (s : Sessions) : Prop :=
  s.worker = .flagging ∨ s.worker = .exited ∨ (s.worker = .top ∧ s.doExit = true)

/--
All calls of `rtlsdr_cancel_async` are behind, and none of them found the device reading:
`main` has begun to read since, or is about to.
-/
structure Hung (s : Sessions) : Prop where
  main :
    s.main = .threadsStarted ∧ s.asyncStatus = .inactive ∨
      s.main = .reading ∧ s.asyncStatus = .running
  worker : s.WorkerSpent
  command : s.command = .flagging ∨ s.command = .exited
  handler : s.handler ≠ .cancelling

theorem Hung.step
    {s next : Sessions}
    {action : SessionAction}
    (hung : Hung s)
    (own : action.Own)
    (taken : s.step action = some next) :
    Hung next := by
  obtain ⟨main, worker, command, handler⟩ := hung
  unfold WorkerSpent at worker
  cases action
  all_goals
    simp only [Sessions.step] at taken
    unfold SessionAction.Own at own
    constructor
  all_goals
    grind [WorkerSpent, Sessions.listen, Sessions.workerLoops, cancelled]

/-- While `main` reads, the status says so. -/
def Reads (s : Sessions) : Prop :=
  s.main = .reading → s.asyncStatus ≠ .inactive

theorem Reads.step
    {s next : Sessions}
    {action : SessionAction}
    (reads : Reads s)
    (taken : s.step action = some next) :
    Reads next := by
  unfold Reads at *
  cases action
  all_goals
    simp only [Sessions.step] at taken
    grind [Sessions.listen, Sessions.workerLoops, cancelled]

/-! ## Sessions that can end -/

section Ends

variable {s next : Sessions} {Ended : Sessions → Prop}

/-- A step that the program makes by itself. -/
theorem reach_of_step
    (action : SessionAction)
    (taken : s.step action = some next)
    (own : action.Own)
    (reach : CanReach step SessionAction.Own Ended next) :
    CanReach step SessionAction.Own Ended s :=
  reach.of_step own taken

/-- `tcp_worker` can call `sighandler` from everywhere but where it is spent. -/
theorem worker_cancels
    (notSpent : ¬ s.WorkerSpent) :
    CanReach step SessionAction.Own
      (fun t => t.main = s.main ∧ t.asyncStatus = cancelled s.asyncStatus) s := by
  have cancelling :
      ∀ {t : Sessions}, t.main = s.main → t.asyncStatus = s.asyncStatus →
        t.worker = .cancelling →
          CanReach step SessionAction.Own
            (fun t => t.main = s.main ∧ t.asyncStatus = cancelled s.asyncStatus) t := by
    intro t main status here
    refine reach_of_step .workerCancels (if_pos here) ⟨nofun, nofun⟩ ?_
    exact .here ⟨main, congrArg cancelled status⟩
  have waiting :
      ∀ {t : Sessions}, t.main = s.main → t.asyncStatus = s.asyncStatus →
        t.worker = .waiting →
          CanReach step SessionAction.Own
            (fun t => t.main = s.main ∧ t.asyncStatus = cancelled s.asyncStatus) t := by
    intro t main status here
    refine reach_of_step .workerTimesOut (if_pos here) ⟨nofun, nofun⟩ ?_
    exact cancelling main status rfl
  unfold WorkerSpent at notSpent
  cases here : s.worker with
  | top =>
      have going : ¬ s.doExit = true :=
        fun exiting => notSpent (.inr (.inr ⟨here, exiting⟩))
      refine reach_of_step .workerLoops (if_pos here) ⟨nofun, nofun⟩ ?_
      exact waiting rfl rfl (if_neg going)
  | waiting => exact waiting rfl rfl here
  | sending =>
      refine reach_of_step (.workerSelects true) (if_pos here) ⟨nofun, nofun⟩ ?_
      exact cancelling rfl rfl (by simp)
  | cancelling => exact cancelling rfl rfl here
  | flagging => exact absurd (.inl here) notSpent
  | exited => exact absurd (.inr (.inl here)) notSpent

/-- `command_worker` can until it has. -/
theorem command_cancels
    (notFlagging : s.command ≠ .flagging)
    (notExited : s.command ≠ .exited) :
    CanReach step SessionAction.Own
      (fun t => t.main = s.main ∧ t.asyncStatus = cancelled s.asyncStatus) s := by
  have cancelling :
      ∀ {t : Sessions}, t.main = s.main → t.asyncStatus = s.asyncStatus →
        t.command = .cancelling →
          CanReach step SessionAction.Own
            (fun t => t.main = s.main ∧ t.asyncStatus = cancelled s.asyncStatus) t := by
    intro t main status here
    refine reach_of_step .commandCancels (if_pos here) ⟨nofun, nofun⟩ ?_
    exact .here ⟨main, congrArg cancelled status⟩
  cases here : s.command with
  | receiving =>
      refine reach_of_step (.commandReceives true) (if_pos here) ⟨nofun, nofun⟩ ?_
      exact cancelling rfl rfl (by simp)
  | cancelling => exact cancelling rfl rfl here
  | flagging => exact absurd here notFlagging
  | exited => exact absurd here notExited

/-- `tcp_worker` leaves wherever it stands: its connection may fail, its wait time out. -/
theorem worker_leaves :
    CanReach step SessionAction.Own
      (fun t => t.main = s.main ∧ t.worker = .exited) s := by
  have flagging :
      ∀ {t : Sessions}, t.main = s.main → t.worker = .flagging →
        CanReach step SessionAction.Own
          (fun t => t.main = s.main ∧ t.worker = .exited) t := by
    intro t main here
    refine reach_of_step .workerFlags (if_pos here) ⟨nofun, nofun⟩ ?_
    exact .here ⟨main, rfl⟩
  have cancelling :
      ∀ {t : Sessions}, t.main = s.main → t.worker = .cancelling →
        CanReach step SessionAction.Own
          (fun t => t.main = s.main ∧ t.worker = .exited) t := by
    intro t main here
    refine reach_of_step .workerCancels (if_pos here) ⟨nofun, nofun⟩ ?_
    exact flagging main rfl
  have waiting :
      ∀ {t : Sessions}, t.main = s.main → t.worker = .waiting →
        CanReach step SessionAction.Own
          (fun t => t.main = s.main ∧ t.worker = .exited) t := by
    intro t main here
    refine reach_of_step .workerTimesOut (if_pos here) ⟨nofun, nofun⟩ ?_
    exact cancelling main rfl
  cases here : s.worker with
  | top =>
      refine reach_of_step .workerLoops (if_pos here) ⟨nofun, nofun⟩ ?_
      cases doExit : s.doExit with
      | true => exact .here ⟨rfl, if_pos doExit⟩
      | false => exact waiting rfl (if_neg (by rw [doExit]; decide))
  | waiting => exact waiting rfl here
  | sending =>
      refine reach_of_step (.workerSelects true) (if_pos here) ⟨nofun, nofun⟩ ?_
      exact cancelling rfl (by simp)
  | cancelling => exact cancelling rfl here
  | flagging => exact flagging rfl here
  | exited => exact .here ⟨rfl, here⟩

theorem command_leaves :
    CanReach step SessionAction.Own
      (fun t => t.main = s.main ∧ t.command = .exited) s := by
  have flagging :
      ∀ {t : Sessions}, t.main = s.main → t.command = .flagging →
        CanReach step SessionAction.Own
          (fun t => t.main = s.main ∧ t.command = .exited) t := by
    intro t main here
    refine reach_of_step .commandFlags (if_pos here) ⟨nofun, nofun⟩ ?_
    exact .here ⟨main, rfl⟩
  have cancelling :
      ∀ {t : Sessions}, t.main = s.main → t.command = .cancelling →
        CanReach step SessionAction.Own
          (fun t => t.main = s.main ∧ t.command = .exited) t := by
    intro t main here
    refine reach_of_step .commandCancels (if_pos here) ⟨nofun, nofun⟩ ?_
    exact flagging main rfl
  cases here : s.command with
  | receiving =>
      refine reach_of_step (.commandReceives true) (if_pos here) ⟨nofun, nofun⟩ ?_
      exact cancelling rfl (by simp)
  | cancelling => exact cancelling rfl here
  | flagging => exact flagging rfl here
  | exited => exact .here ⟨rfl, here⟩

/-! ### From there to the next client -/

theorem joined_ends
    (here : s.main = .joined) :
    CanReach step SessionAction.Own Listening s := by
  refine reach_of_step .clear (if_pos here) ⟨nofun, nofun⟩ ?_
  exact .here (show MainPc.listening = .listening from rfl)

theorem joiningCommand_ends
    (here : s.main = .joiningCommand) :
    CanReach step SessionAction.Own Listening s := by
  refine command_leaves.trans ?_
  rintro t ⟨main, exited⟩
  refine reach_of_step .joinCommand (if_pos ⟨main.trans here, exited⟩) ⟨nofun, nofun⟩ ?_
  exact joined_ends rfl

theorem joiningWorker_ends
    (here : s.main = .joiningWorker) :
    CanReach step SessionAction.Own Listening s := by
  refine worker_leaves.trans ?_
  rintro t ⟨main, exited⟩
  refine reach_of_step .joinWorker (if_pos ⟨main.trans here, exited⟩) ⟨nofun, nofun⟩ ?_
  exact joiningCommand_ends rfl

/-- The reading has been cancelled. -/
theorem canceling_ends
    (here : s.main = .reading)
    (status : s.asyncStatus = .canceling) :
    CanReach step SessionAction.Own Listening s := by
  refine reach_of_step (.readReturns true) (if_pos ⟨here, status⟩) ⟨nofun, nofun⟩ ?_
  exact joiningWorker_ends rfl

/-- A call of `rtlsdr_cancel_async` is still to come. -/
theorem running_ends
    (here : s.main = .reading)
    (status : s.asyncStatus = .running)
    (notHung : ¬ s.Hung) :
    CanReach step SessionAction.Own Listening s := by
  have cancels : cancelled s.asyncStatus = .canceling := if_pos status
  have cancelledEnds :
      ∀ t : Sessions, t.main = s.main ∧ t.asyncStatus = cancelled s.asyncStatus →
        CanReach step SessionAction.Own Listening t := by
    rintro t ⟨main, isCancelled⟩
    exact canceling_ends (main.trans here) (isCancelled.trans cancels)
  by_cases worker : s.WorkerSpent
  · by_cases command : s.command = .flagging ∨ s.command = .exited
    · have handler : s.handler = .cancelling := by
        by_contra notCancelling
        exact notHung ⟨.inr ⟨here, status⟩, worker, command, notCancelling⟩
      refine reach_of_step .handlerCancels (if_pos handler) ⟨nofun, nofun⟩ ?_
      exact canceling_ends here cancels
    · rw [not_or] at command
      exact (command_cancels command.1 command.2).trans cancelledEnds
  · exact (worker_cancels worker).trans cancelledEnds

theorem threadsStarted_ends
    (here : s.main = .threadsStarted)
    (notHung : ¬ s.Hung) :
    CanReach step SessionAction.Own Listening s := by
  have taken :
      s.step .readAsync =
        if s.asyncStatus = .inactive then
          some { s with main := .reading, asyncStatus := .running }
        else
          some { s with main := .joiningWorker } :=
    if_pos here
  by_cases inactive : s.asyncStatus = .inactive
  · rw [if_pos inactive] at taken
    refine reach_of_step .readAsync taken ⟨nofun, nofun⟩ (running_ends rfl rfl ?_)
    rintro ⟨-, worker, command, handler⟩
    exact notHung ⟨.inl ⟨here, inactive⟩, worker, command, handler⟩
  · rw [if_neg inactive] at taken
    exact reach_of_step .readAsync taken ⟨nofun, nofun⟩ (joiningWorker_ends rfl)

end Ends

/-- The threads of a client are not both there yet. -/
theorem sendingStarted_ends
    {s : Sessions}
    (here : s.main = .sendingStarted) :
    CanReach step SessionAction.Own Listening s := by
  refine reach_of_step .createCommand (if_pos here) ⟨nofun, nofun⟩ ?_
  refine threadsStarted_ends rfl ?_
  rintro ⟨-, -, spent | spent, -⟩
  · cases spent
  · cases spent

/--
In every run, while a client is served: without a signal, and as long as the device
works, `main` can get to the next client if and only if some call of
`rtlsdr_cancel_async` is still to come, or one has found the device reading.
-/
theorem session_ends_iff
    {actions : List SessionAction}
    {s : Sessions}
    (reached : run step start actions = some s)
    (serving : s.main ≠ .listening ∧ s.main ≠ .left) :
    CanReach step SessionAction.Own Listening s ↔ ¬ s.Hung := by
  have reads : Reads s :=
    PartialRun.invariant Reads Reads.step (show Reads start from nofun) reached
  constructor
  · intro ends hung
    refine PartialRun.not_canReach Hung.step ?_ hung ends
    rintro t ⟨main, -, -, -⟩ listening
    unfold Listening at listening
    rw [listening] at main
    simp at main
  · intro notHung
    cases here : s.main with
    | listening => exact absurd here serving.1
    | accepted =>
        refine reach_of_step .createWorker (if_pos here) ⟨nofun, nofun⟩ ?_
        exact sendingStarted_ends rfl
    | sendingStarted => exact sendingStarted_ends here
    | threadsStarted => exact threadsStarted_ends here notHung
    | reading =>
        cases status : s.asyncStatus with
        | inactive => exact absurd status (reads here)
        | canceling => exact canceling_ends here status
        | running => exact running_ends here status notHung
    | joiningWorker => exact joiningWorker_ends here
    | joiningCommand => exact joiningCommand_ends here
    | joined => exact joined_ends here
    | left => exact absurd here serving.2

/-- The client has gone before `main` begins to read. -/
def goneEarly : List SessionAction :=
  [.listen true, .createWorker, .createCommand, .commandReceives true, .commandCancels,
    .commandFlags, .workerLoops, .readAsync]

theorem session_ends_iff_gone :
    ∃ s : Sessions,
      run step start goneEarly = some s ∧
        s.main = .reading ∧ s.Hung ∧
        (CanReach step SessionAction.Own Listening s ↔ ¬ s.Hung) := by
  refine ⟨_, rfl, rfl, ?_, @session_ends_iff goneEarly _ rfl ?_⟩
  · exact ⟨.inr ⟨rfl, rfl⟩, .inr (.inl rfl), .inr rfl, nofun⟩
  · exact ⟨nofun, nofun⟩

end Sessions

end LibRtlSdr.RtlTcp
