import LibRtlSdr.HpsdrDatagrams

namespace LibRtlSdr.Hpsdr

open PartialRun (run)

/-!
# The clients of `rtl_hpsdr`

A START makes its sender the one to whom frames go: `main` waits until the thread before
has cleared `active_thread`, stores the address in `addr_old` and creates a thread that
numbers its frames from zero.  A STOP waits as well.  All sender threads share `addr_old`
and the number in `payload`; each access to what is shared is a step of its own.

What the receivers do, and with it when a frame is complete, is left out: the wait of a
sender may end at any time, and it holds no lock.  What is shown holds all the more of the
program.
-/

/-! ## Source -/

/-- Where `main` stands in its loop. -/
inductive ListenerPc where
  /-- At `recvfrom`. -/
  | idle
  /-- STOP: waiting until `active_thread` is clear. -/
  | stopWaiting
  /-- START: the same. -/
  | startWaiting
  /-- START: about to clear `addr_old`. -/
  | clearing
  /-- START: about to store the address. -/
  | addressing
  /-- START: about to set `enable_thread`. -/
  | enabling
  /-- START: about to set `active_thread`. -/
  | activating
  /-- START: about to create the thread. -/
  | creating
deriving DecidableEq

/-- Where a `handler_ep6` stands. -/
inductive SenderPc where
  | absent
  /-- At the head of its loop. -/
  | top
  /-- Waiting for a frame. -/
  | waiting
  /-- About to put its number into `payload`. -/
  | numbering
  /-- About to send. -/
  | sending
  /-- Behind its loop, about to clear `active_thread`. -/
  | leaving
  | done
deriving DecidableEq

/-- The thread may still touch what is shared. -/
def SenderPc.Live (pc : SenderPc) : Prop :=
  pc ≠ .absent ∧ pc ≠ .done

/-- What is shared, the places of the threads, and what has been sent. -/
structure Clients (Address : Type) where
  receiver : Receiver
  addrFrom : Option Address
  /-- `addr_old`, unless it is cleared. -/
  addrOld : Option Address
  enableThread : Bool
  activeThread : Bool
  /-- The number in `payload`. -/
  payloadSeq : UInt32
  main : ListenerPc
  /-- How many threads `main` has created. -/
  started : Nat
  senderPc : Nat → SenderPc
  /-- The `counter` of each thread. -/
  counter : Nat → UInt32
  /-- The frames that were sent: to whom, and with which number. -/
  network : List (Option Address × UInt32)

/-- The steps of `main` and of the sender threads. -/
inductive ClientAction (Address : Type) where
  /-- `recvfrom`, and what the datagram asks for. -/
  | receive (received : Option (Address × List UInt8))
  /-- `active_thread` is seen to be clear. -/
  | observe
  | clearAddr
  | storeAddr
  | enable
  | activate
  /-- `pthread_create`, which may fail; only a negative result would be noticed. -/
  | create (created : Bool)
  | check (sender : Nat)
  | release (sender : Nat)
  | number (sender : Nat)
  | send (sender : Nat)
  | deactivate (sender : Nat)

variable {Address : Type}

namespace Clients

/-- Before the first datagram. -/
def start : Clients Address :=
  { receiver := (Loop.start : Loop Address).receiver
    addrFrom := none
    addrOld := none
    enableThread := false
    activeThread := false
    payloadSeq := 0
    main := .idle
    started := 0
    senderPc := fun _ => .absent
    counter := fun _ => 0
    network := [] }

/-- A sender moves. -/
def move
    (s : Clients Address)
    (sender : Nat)
    (pc : SenderPc) :
    Clients Address :=
  { s with senderPc := Function.update s.senderPc sender pc }

/-- What `main` goes on with behind an iteration of its loop. -/
def afterOutcome (s : Clients Address) : Outcome Address → Clients Address
  | .stop => { s with enableThread := false, main := .stopWaiting }
  | .start _ => { s with enableThread := false, main := .startWaiting }
  | _ => s

/-- One step of one of the threads. -/
def step
    (total : RcvrTotal)
    (s : Clients Address) :
    ClientAction Address → Option (Clients Address)
  | .receive received =>
      if s.main = .idle then
        (Hpsdr.receive total s.receiver received).map fun next =>
          afterOutcome
            { s with
              receiver := next.1
              addrFrom := (received.map Prod.fst).or s.addrFrom }
            next.2
      else
        none
  | .observe =>
      if s.activeThread = true then
        none
      else if s.main = .stopWaiting then
        some { s with main := .idle }
      else if s.main = .startWaiting then
        some { s with main := .clearing }
      else
        none
  | .clearAddr =>
      if s.main = .clearing then some { s with addrOld := none, main := .addressing } else none
  | .storeAddr =>
      if s.main = .addressing then
        some { s with addrOld := s.addrFrom, main := .enabling }
      else
        none
  | .enable =>
      if s.main = .enabling then
        some { s with enableThread := true, main := .activating }
      else
        none
  | .activate =>
      if s.main = .activating then
        some { s with activeThread := true, main := .creating }
      else
        none
  | .create created =>
      if s.main = .creating then
        some
          { s.move s.started (if created then .top else .done) with
            main := .idle
            started := s.started + 1 }
      else
        none
  | .check sender =>
      if s.senderPc sender = .top then
        some (s.move sender (if s.enableThread then .waiting else .leaving))
      else
        none
  | .release sender =>
      if s.senderPc sender = .waiting then some (s.move sender .numbering) else none
  | .number sender =>
      if s.senderPc sender = .numbering then
        some
          { s.move sender .sending with
            payloadSeq := s.counter sender
            counter := Function.update s.counter sender (s.counter sender + 1) }
      else
        none
  | .send sender =>
      if s.senderPc sender = .sending then
        some
          { s.move sender .top with
            network := s.network ++ [(s.addrOld, s.payloadSeq)] }
      else
        none
  | .deactivate sender =>
      if s.senderPc sender = .leaving then
        some { s.move sender .done with activeThread := false }
      else
        none

end Clients

/-- What has been received in a run. -/
def receivedBy (actions : List (ClientAction Address)) :
    List (Option (Address × List UInt8)) :=
  actions.filterMap fun action =>
    match action with
    | .receive received => some received
    | _ => none

/-- Whose START a datagram is. -/
def starter? (received : Option (Address × List UInt8)) : Option Address :=
  received.bind fun sent =>
    match requestOf sent.2 with
    | some .start => some sent.1
    | _ => none

/-- Who has asked for a START, in order. -/
def startersOf (actions : List (ClientAction Address)) : List Address :=
  (receivedBy actions).filterMap starter?

namespace Clients

@[simp] theorem move_senderPc_self
    (s : Clients Address)
    (sender : Nat)
    (pc : SenderPc) :
    (s.move sender pc).senderPc sender = pc :=
  Function.update_self ..

theorem move_senderPc_of_ne
    {s : Clients Address}
    {sender other : Nat}
    {pc : SenderPc}
    (differs : other ≠ sender) :
    (s.move sender pc).senderPc other = s.senderPc other :=
  Function.update_of_ne differs ..

/-! ## The invariant -/

/-- `main` has received a START and not created the thread yet. -/
def Starting (s : Clients Address) : Prop :=
  s.main ≠ .idle ∧ s.main ≠ .stopWaiting

/-- `main` is behind the wait of a START. -/
def Alone (s : Clients Address) : Prop :=
  s.Starting ∧ s.main ≠ .startWaiting

/-- `addr_old` is the address of the START that is under way. -/
def Addressed (s : Clients Address) : Prop :=
  s.main = .enabling ∨ s.main = .activating ∨ s.main = .creating

instance (s : Clients Address) : Decidable s.Starting :=
  inferInstanceAs (Decidable (_ ∧ _))

theorem starting_of_main
    {s : Clients Address}
    {main : ListenerPc}
    (isMain : s.main = main)
    (starting : main ≠ .idle ∧ main ≠ .stopWaiting) :
    s.Starting := by
  subst isMain
  exact starting

theorem alone_of_main
    {s : Clients Address}
    {main : ListenerPc}
    (isMain : s.main = main)
    (alone : main ≠ .idle ∧ main ≠ .stopWaiting ∧ main ≠ .startWaiting) :
    s.Alone := by
  subst isMain
  exact ⟨⟨alone.1, alone.2.1⟩, alone.2.2⟩

/-- The frames of one sender thread: to one client, numbered from zero. -/
def framesTo
    (clients : List Address)
    (sender count : Nat) :
    List (Option Address × UInt32) :=
  (List.range count).map fun number => (clients[sender]?, UInt32.ofNat number)

/-- What holds in every reached state, by the clients that have asked for a START. -/
structure Holds
    (clients : List Address)
    (counts : Nat → Nat)
    (s : Clients Address) : Prop where
  fresh : ∀ sender, s.started ≤ sender → s.senderPc sender = .absent ∧ counts sender = 0
  single : ∀ sender, (s.senderPc sender).Live → sender + 1 = s.started
  gone : s.activeThread = false ∨ s.Alone → ∀ sender, ¬ (s.senderPc sender).Live
  activated : s.main = .creating → s.activeThread = true
  asked : clients.length = s.started + (if s.Starting then 1 else 0)
  asking : s.Starting → s.addrFrom = clients[s.started]?
  addressed : s.Addressed → s.addrOld = clients[s.started]?
  served : ∀ sender, (s.senderPc sender).Live → s.addrOld = clients[sender]?
  sent :
    s.network = (List.range s.started).flatMap fun sender =>
      framesTo clients sender (counts sender)
  counter :
    ∀ sender, s.started ≤ sender ∨ (s.senderPc sender).Live →
      s.counter sender =
        UInt32.ofNat (counts sender + if s.senderPc sender = .sending then 1 else 0)
  numbered :
    ∀ sender, s.senderPc sender = .sending → s.payloadSeq = UInt32.ofNat (counts sender)

theorem Holds.start : Holds ([] : List Address) (fun _ => 0) Clients.start where
  fresh := fun _ _ => ⟨rfl, rfl⟩
  single := fun _ live => absurd rfl live.1
  gone := fun _ _ live => live.1 rfl
  activated := fun creating => by cases creating
  asked := rfl
  asking := fun _ => rfl
  addressed := fun _ => rfl
  served := fun _ live => absurd rfl live.1
  sent := rfl
  counter := fun _ _ => rfl
  numbered := fun _ sending => by cases sending

namespace Holds

variable {clients : List Address} {counts : Nat → Nat} {s : Clients Address}

/-- A sender that is live was started. -/
theorem lt_started
    (holds : Holds clients counts s)
    {sender : Nat}
    (live : (s.senderPc sender).Live) :
    sender < s.started := by
  have last := holds.single sender live
  omega

theorem framesTo_append
    {sender : Nat}
    (known : sender < clients.length)
    (more : List Address)
    (count : Nat) :
    framesTo (clients ++ more) sender count = framesTo clients sender count := by
  unfold framesTo
  rw [List.getElem?_append_left known]

/-- What a START that is under way is allowed to change. -/
theorem moveMain
    (holds : Holds clients counts s)
    {main : ListenerPc}
    {addrOld : Option Address}
    {enableThread activeThread : Bool}
    (starting : s.Starting)
    (gone : ∀ sender, ¬ (s.senderPc sender).Live)
    (same : main ≠ .idle ∧ main ≠ .stopWaiting)
    (activated : main = .creating → activeThread = true)
    (addressed :
      ({ s with main := main } : Clients Address).Addressed → addrOld = clients[s.started]?) :
    Holds clients counts
      { s with
        main := main
        addrOld := addrOld
        enableThread := enableThread
        activeThread := activeThread } := by
  have asked := holds.asked
  rw [if_pos starting] at asked
  refine
    { holds with
      gone := fun _ => gone
      activated := activated
      asked := ?_
      asking := fun _ => holds.asking starting
      addressed := addressed
      served := fun sender live => absurd live (gone sender) }
  rw [asked]
  exact congrArg _ (if_pos same).symm

/-- Whoever is live behind a sender's step was so before it. -/
theorem liveBefore
    {sender other : Nat}
    {pc : SenderPc}
    (wasLive : (s.senderPc sender).Live)
    (live : ((s.move sender pc).senderPc other).Live) :
    (s.senderPc other).Live := by
  by_cases here : other = sender
  · rwa [here]
  · rwa [move_senderPc_of_ne here] at live

/-- Only one sender is live. -/
theorem eq_of_live
    (holds : Holds clients counts s)
    {sender other : Nat}
    (live : (s.senderPc sender).Live)
    (otherLive : (s.senderPc other).Live) :
    other = sender := by
  have last := holds.single sender live
  have otherLast := holds.single other otherLive
  omega

/-- What was not started is not touched by a sender's step. -/
theorem freshBehind
    (holds : Holds clients counts s)
    {sender other : Nat}
    (wasLive : (s.senderPc sender).Live)
    (pc : SenderPc)
    (beyond : s.started ≤ other) :
    other ≠ sender ∧ (s.move sender pc).senderPc other = .absent ∧ counts other = 0 := by
  have differs : other ≠ sender := by
    rintro rfl
    exact wasLive.1 (holds.fresh other beyond).1
  refine ⟨differs, ?_⟩
  rw [move_senderPc_of_ne differs]
  exact holds.fresh other beyond

/-- A sender moves on, without a number in hand. -/
theorem moveSender
    (holds : Holds clients counts s)
    {sender : Nat}
    {pc : SenderPc}
    (wasLive : (s.senderPc sender).Live)
    (was : s.senderPc sender ≠ .sending)
    (is : pc ≠ .sending) :
    Holds clients counts (s.move sender pc) := by
  have sendingBefore :
      ∀ other, (s.move sender pc).senderPc other = .sending ↔ s.senderPc other = .sending := by
    intro other
    by_cases here : other = sender
    · subst here
      rw [move_senderPc_self]
      exact iff_of_false is was
    · rw [move_senderPc_of_ne here]
  refine
    { holds with
      fresh := fun other beyond => (holds.freshBehind wasLive pc beyond).2
      single := fun other live => holds.single other (liveBefore wasLive live)
      gone := fun quiet other live => holds.gone quiet other (liveBefore wasLive live)
      served := fun other live => holds.served other (liveBefore wasLive live)
      counter := ?_
      numbered := fun other sending =>
        holds.numbered other ((sendingBefore other).mp sending) }
  intro other isStarted
  simp only [sendingBefore]
  exact holds.counter other (isStarted.imp_right (liveBefore wasLive))

/-- A sender puts its number into `payload`. -/
theorem number
    (holds : Holds clients counts s)
    {sender : Nat}
    (here : s.senderPc sender = .numbering) :
    Holds clients counts
      { s.move sender .sending with
        payloadSeq := s.counter sender
        counter := Function.update s.counter sender (s.counter sender + 1) } := by
  have wasLive : (s.senderPc sender).Live := by
    rw [here]
    exact ⟨by decide, by decide⟩
  have number : s.counter sender = UInt32.ofNat (counts sender) := by
    have before := holds.counter sender (.inr wasLive)
    rwa [here, if_neg (by decide)] at before
  refine
    { holds with
      fresh := fun other beyond => (holds.freshBehind wasLive .sending beyond).2
      single := fun other live => holds.single other (liveBefore wasLive live)
      gone := fun quiet other live => holds.gone quiet other (liveBefore wasLive live)
      served := fun other live => holds.served other (liveBefore wasLive live)
      counter := ?_
      numbered := ?_ }
  · intro other isStarted
    dsimp only
    by_cases same : other = sender
    · subst same
      rw [Function.update_self, move_senderPc_self, if_pos rfl, number, UInt32.ofNat_add]
      rfl
    · rw [Function.update_of_ne same, move_senderPc_of_ne same]
      exact holds.counter other (isStarted.imp_right (liveBefore wasLive))
  · intro other sending
    dsimp only at sending ⊢
    by_cases same : other = sender
    · rw [same]
      exact number
    · rw [move_senderPc_of_ne same] at sending
      have live : (s.senderPc other).Live := by
        rw [sending]
        exact ⟨by decide, by decide⟩
      exact absurd (holds.eq_of_live wasLive live) same

/-- One frame more to a client. -/
theorem framesTo_succ
    (sender count : Nat) :
    framesTo clients sender (count + 1) =
      framesTo clients sender count ++ [(clients[sender]?, UInt32.ofNat count)] := by
  unfold framesTo
  rw [List.range_succ, List.map_append, List.map_singleton]

/-- A sender sends. -/
theorem send
    (holds : Holds clients counts s)
    {sender : Nat}
    (here : s.senderPc sender = .sending) :
    Holds clients (Function.update counts sender (counts sender + 1))
      { s.move sender .top with
        network := s.network ++ [(s.addrOld, s.payloadSeq)] } := by
  have wasLive : (s.senderPc sender).Live := by
    rw [here]
    exact ⟨by decide, by decide⟩
  have number : s.counter sender = UInt32.ofNat (counts sender + 1) := by
    have before := holds.counter sender (.inr wasLive)
    rwa [here, if_pos rfl] at before
  refine
    { holds with
      fresh := ?_
      single := fun other live => holds.single other (liveBefore wasLive live)
      gone := fun quiet other live => holds.gone quiet other (liveBefore wasLive live)
      served := fun other live => holds.served other (liveBefore wasLive live)
      sent := ?_
      counter := ?_
      numbered := ?_ }
  · intro other beyond
    obtain ⟨differs, absent, none⟩ := holds.freshBehind wasLive .top beyond
    exact ⟨absent, by rw [Function.update_of_ne differs, none]⟩
  · dsimp only [move]
    have last : s.started = sender + 1 := (holds.single sender wasLive).symm
    have earlier :
        (List.range sender).flatMap (fun other =>
            framesTo clients other
              (Function.update counts sender (counts sender + 1) other)) =
          (List.range sender).flatMap fun other => framesTo clients other (counts other) := by
      apply List.flatMap_congr
      intro other member
      rw [Function.update_of_ne (Nat.ne_of_lt (List.mem_range.mp member))]
    rw [holds.sent, last, List.range_succ, List.flatMap_append, List.flatMap_append, earlier,
      List.flatMap_singleton, List.flatMap_singleton, Function.update_self, framesTo_succ,
      List.append_assoc, holds.served sender wasLive, holds.numbered sender here]
  · intro other isStarted
    dsimp only
    by_cases same : other = sender
    · subst same
      rw [Function.update_self, move_senderPc_self, if_neg (by decide)]
      exact number
    · rw [Function.update_of_ne same, move_senderPc_of_ne same]
      exact holds.counter other (isStarted.imp_right (liveBefore wasLive))
  · intro other sending
    dsimp only at sending ⊢
    have differs : other ≠ sender := by
      rintro rfl
      rw [move_senderPc_self] at sending
      cases sending
    rw [move_senderPc_of_ne differs] at sending
    have live : (s.senderPc other).Live := by
      rw [sending]
      exact ⟨by decide, by decide⟩
    exact absurd (holds.eq_of_live wasLive live) differs

/-- A sender leaves. -/
theorem deactivate
    (holds : Holds clients counts s)
    {sender : Nat}
    (here : s.senderPc sender = .leaving) :
    Holds clients counts { s.move sender .done with activeThread := false } := by
  have wasLive : (s.senderPc sender).Live := by
    rw [here]
    exact ⟨by decide, by decide⟩
  have moved : Holds clients counts (s.move sender .done) :=
    holds.moveSender wasLive (by rw [here]; decide) (by decide)
  refine
    { moved with
      gone := ?_
      activated := ?_ }
  · intro _ other live
    have same := holds.eq_of_live wasLive (liveBefore wasLive live)
    subst same
    rw [move_senderPc_self] at live
    exact live.2 rfl
  · intro creating
    have alone : s.Alone := alone_of_main creating (by decide)
    exact absurd wasLive (holds.gone (.inr alone) sender)

/-- `main` creates the thread for the client whose START is under way. -/
theorem create
    (holds : Holds clients counts s)
    (creating : s.main = .creating)
    (created : Bool) :
    Holds clients counts
      { s.move s.started (if created then .top else .done) with
        main := .idle
        started := s.started + 1 } := by
  have alone : s.Alone := alone_of_main creating (by decide)
  have gone := holds.gone (.inr alone)
  have asked := holds.asked
  rw [if_pos alone.1] at asked
  obtain ⟨_, none⟩ := holds.fresh s.started (Nat.le_refl _)
  have pc : (if created then SenderPc.top else .done) ≠ .sending := by
    cases created <;> decide
  have eq_started :
      ∀ other, ((s.move s.started (if created then .top else .done)).senderPc other).Live →
        other = s.started := by
    intro other live
    by_contra differs
    rw [move_senderPc_of_ne differs] at live
    exact gone other live
  refine
    { fresh := ?_
      single := fun other live => congrArg (· + 1) (eq_started other live)
      gone := ?_
      activated := fun idle => by cases idle
      asked := ?_
      asking := fun starting => absurd rfl starting.1
      addressed := ?_
      served := ?_
      sent := ?_
      counter := ?_
      numbered := ?_ }
  · intro other beyond
    have beyond : s.started + 1 ≤ other := beyond
    have differs : other ≠ s.started := by omega
    dsimp only
    rw [move_senderPc_of_ne differs]
    exact holds.fresh other (by omega)
  · rintro (inactive | ⟨starting, _⟩)
    · have inactive : s.activeThread = false := inactive
      rw [holds.activated creating] at inactive
      cases inactive
    · exact absurd rfl starting.1
  · dsimp only
    rw [asked, if_neg (fun starting => starting.1 rfl)]
  · rintro (addressed | addressed | addressed) <;> cases addressed
  · intro other live
    rw [eq_started other live]
    exact holds.addressed (.inr (.inr creating))
  · dsimp only [move]
    rw [List.range_succ, List.flatMap_append, List.flatMap_singleton, none, holds.sent]
    exact (List.append_nil _).symm
  · intro other isStarted
    dsimp only
    by_cases same : other = s.started
    · subst same
      have before := holds.counter s.started (.inl (Nat.le_refl _))
      rw [move_senderPc_self, if_neg pc]
      rwa [(holds.fresh s.started (Nat.le_refl _)).1, if_neg (by decide)] at before
    · rw [move_senderPc_of_ne same]
      refine holds.counter other ?_
      rcases isStarted with beyond | live
      · have beyond : s.started + 1 ≤ other := beyond
        exact .inl (by omega)
      · exact absurd (eq_started other live) same
  · intro other sending
    dsimp only at sending ⊢
    by_cases same : other = s.started
    · rw [same, move_senderPc_self] at sending
      exact absurd sending pc
    · rw [move_senderPc_of_ne same] at sending
      exact holds.numbered other sending

/-- A START has been received. -/
theorem received
    (holds : Holds clients counts s)
    (idle : s.main = .idle)
    (client : Address)
    (receiver : Receiver) :
    Holds (clients ++ [client]) counts
      { s with
        receiver := receiver
        addrFrom := some client
        enableThread := false
        main := .startWaiting } := by
  have notStarting : ¬ s.Starting := fun starting => starting.1 idle
  have starting : ∀ t : Clients Address, t.main = .startWaiting → t.Starting :=
    fun _ isMain => starting_of_main isMain (by decide)
  have asked := holds.asked
  rw [if_neg notStarting, Nat.add_zero] at asked
  refine
    { holds with
      gone := ?_
      activated := fun creating => by cases creating
      asked := ?_
      asking := ?_
      addressed := ?_
      served := ?_
      sent := ?_ }
  · rintro (inactive | ⟨_, waiting⟩)
    · exact holds.gone (.inl inactive)
    · exact absurd rfl waiting
  · rw [List.length_append, asked, if_pos (starting _ rfl)]
    rfl
  · intro _
    dsimp only
    rw [← asked, List.getElem?_concat_length]
  · rintro (addressed | addressed | addressed) <;> cases addressed
  · intro sender live
    have known : sender < clients.length := by
      rw [asked]
      exact holds.lt_started live
    rw [List.getElem?_append_left known]
    exact holds.served sender live
  · dsimp only
    rw [holds.sent]
    apply List.flatMap_congr
    intro sender member
    have known : sender < clients.length := by
      rw [asked]
      exact List.mem_range.mp member
    rw [framesTo_append known]

/-- `main` goes between its loop and the wait of a STOP. -/
theorem stopped
    (holds : Holds clients counts s)
    (outside : ¬ s.Starting)
    {main : ListenerPc}
    (stays : main = .idle ∨ main = .stopWaiting)
    (receiver : Receiver)
    (addrFrom : Option Address)
    (enableThread : Bool) :
    Holds clients counts
      { s with
        receiver := receiver
        addrFrom := addrFrom
        enableThread := enableThread
        main := main } := by
  have notStarting :
      ∀ t : Clients Address, t.main = main → ¬ t.Starting := by
    rintro t isMain ⟨notIdle, notWaiting⟩
    rw [isMain] at notIdle notWaiting
    exact stays.elim notIdle notWaiting
  have asked := holds.asked
  rw [if_neg outside] at asked
  refine
    { holds with
      gone := ?_
      activated := ?_
      asked := ?_
      asking := fun starting => absurd starting (notStarting _ rfl)
      addressed := ?_ }
  · rintro (inactive | ⟨starting, _⟩)
    · exact holds.gone (.inl inactive)
    · exact absurd starting (notStarting _ rfl)
  · rintro rfl
    rcases stays with stays | stays <;> cases stays
  · dsimp only
    rw [asked, if_neg (notStarting _ rfl)]
  · rintro (addressed | addressed | addressed) <;>
      rcases stays with stays | stays <;>
      cases stays.symm.trans addressed

end Holds

/-! ## Runs -/

theorem starter?_eq_some_iff
    {received : Option (Address × List UInt8)}
    {client : Address} :
    starter? received = some client ↔
      ∃ datagram, received = some (client, datagram) ∧ requestOf datagram = some .start := by
  rcases received with _ | ⟨other, datagram⟩
  · simp [starter?]
  · rcases asks : requestOf datagram with _ | (_ | _ | _ | _) <;> simp [starter?, asks]

theorem startersOf_receive (received : Option (Address × List UInt8)) :
    startersOf [.receive received] = (starter? received).toList := by
  unfold startersOf receivedBy
  rcases starts : starter? received with _ | client <;> simp [starts]

theorem startersOf_append
    (first second : List (ClientAction Address)) :
    startersOf (first ++ second) = startersOf first ++ startersOf second := by
  unfold startersOf receivedBy
  rw [List.filterMap_append, List.filterMap_append]

/-- What a datagram does. -/
theorem Holds.receive
    {total : RcvrTotal}
    {clients : List Address}
    {counts : Nat → Nat}
    {s : Clients Address}
    (holds : Holds clients counts s)
    (idle : s.main = .idle)
    {received : Option (Address × List UInt8)}
    {receiver : Receiver}
    {outcome : Outcome Address}
    (taken : Hpsdr.receive total s.receiver received = some (receiver, outcome)) :
    Holds (clients ++ (starter? received).toList) counts
      (afterOutcome
        { s with
          receiver := receiver
          addrFrom := (received.map Prod.fst).or s.addrFrom }
        outcome) := by
  have outside : ¬ s.Starting := fun starting => starting.1 idle
  have commands := receive_commands taken
  by_cases starts : ∃ client, outcome = .start client
  · obtain ⟨client, rfl⟩ := starts
    obtain ⟨datagram, rfl, asks⟩ := (commands.1 client).mp rfl
    rw [starter?_eq_some_iff.mpr ⟨datagram, rfl, asks⟩]
    exact holds.received idle client receiver
  · have noStarter : starter? received = none := by
      rw [Option.eq_none_iff_forall_ne_some]
      intro client isStarter
      exact starts ⟨client, (commands.1 client).mpr (starter?_eq_some_iff.mp isStarter)⟩
    rw [noStarter, Option.toList_none, List.append_nil]
    by_cases stops : outcome = .stop
    · subst stops
      exact holds.stopped outside (.inr rfl) receiver _ false
    · have stays :
          ∀ t : Clients Address, afterOutcome t outcome = t := by
        intro t
        cases outcome with
        | stop => exact absurd rfl stops
        | start client => exact absurd ⟨client, rfl⟩ starts
        | _ => rfl
      rw [stays]
      exact holds.stopped outside (.inl idle) receiver _ s.enableThread

theorem Holds.keep
    {clients : List Address}
    {counts : Nat → Nat}
    {s : Clients Address}
    {action : ClientAction Address}
    (noStart : startersOf [action] = [])
    (holds : Holds clients counts s) :
    ∃ after, Holds (clients ++ startersOf [action]) after s := by
  rw [noStart, List.append_nil]
  exact ⟨counts, holds⟩

/-- One step of one of the threads. -/
theorem Holds.step
    {total : RcvrTotal}
    {clients : List Address}
    {counts : Nat → Nat}
    {s next : Clients Address}
    {action : ClientAction Address}
    (holds : Holds clients counts s)
    (taken : s.step total action = some next) :
    ∃ after, Holds (clients ++ startersOf [action]) after next := by
  unfold Clients.step at taken
  cases action with
  | receive received =>
      obtain ⟨idle, taken⟩ := Option.ite_none_right_eq_some.mp taken
      obtain ⟨⟨receiver, outcome⟩, isReceived, rfl⟩ := Option.map_eq_some_iff.mp taken
      rw [startersOf_receive]
      exact ⟨counts, holds.receive idle isReceived⟩
  | observe =>
      obtain ⟨inactive, taken⟩ := Option.ite_none_left_eq_some.mp taken
      have gone := holds.gone (.inl (Bool.eq_false_iff.mpr inactive))
      by_cases stopping : s.main = .stopWaiting
      · rw [if_pos stopping] at taken
        cases taken
        exact Holds.keep rfl (holds.stopped (fun starting => starting.2 stopping) (.inl rfl)
          s.receiver s.addrFrom s.enableThread)
      · rw [if_neg stopping] at taken
        obtain ⟨starting, isNext⟩ := Option.ite_none_right_eq_some.mp taken
        cases isNext
        have isStarting : s.Starting := starting_of_main starting (by decide)
        exact Holds.keep rfl
          (holds.moveMain isStarting gone (by decide) (fun creating => (by cases creating))
            (by simp [Addressed]))
  | clearAddr =>
      obtain ⟨here, isNext⟩ := Option.ite_none_right_eq_some.mp taken
      cases isNext
      have alone := alone_of_main here (by decide)
      exact Holds.keep rfl
        (holds.moveMain alone.1 (holds.gone (.inr alone)) (by decide)
          (fun creating => (by cases creating)) (by simp [Addressed]))
  | storeAddr =>
      obtain ⟨here, isNext⟩ := Option.ite_none_right_eq_some.mp taken
      cases isNext
      have alone := alone_of_main here (by decide)
      exact Holds.keep rfl
        (holds.moveMain alone.1 (holds.gone (.inr alone)) (by decide)
          (fun creating => (by cases creating)) fun _ => holds.asking alone.1)
  | enable =>
      obtain ⟨here, isNext⟩ := Option.ite_none_right_eq_some.mp taken
      cases isNext
      have alone := alone_of_main here (by decide)
      exact Holds.keep rfl
        (holds.moveMain alone.1 (holds.gone (.inr alone)) (by decide)
          (fun creating => (by cases creating)) fun _ => holds.addressed (.inl here))
  | activate =>
      obtain ⟨here, isNext⟩ := Option.ite_none_right_eq_some.mp taken
      cases isNext
      have alone := alone_of_main here (by decide)
      exact Holds.keep rfl
        (holds.moveMain alone.1 (holds.gone (.inr alone)) (by decide) (fun _ => rfl)
          fun _ => holds.addressed (.inr (.inl here)))
  | create created =>
      obtain ⟨here, isNext⟩ := Option.ite_none_right_eq_some.mp taken
      cases isNext
      exact Holds.keep rfl (holds.create here created)
  | check sender =>
      obtain ⟨here, isNext⟩ := Option.ite_none_right_eq_some.mp taken
      cases isNext
      refine Holds.keep rfl (holds.moveSender ?_ ?_ ?_)
      · rw [here]
        exact ⟨by decide, by decide⟩
      · rw [here]
        decide
      · split <;> decide
  | release sender =>
      obtain ⟨here, isNext⟩ := Option.ite_none_right_eq_some.mp taken
      cases isNext
      refine Holds.keep rfl (holds.moveSender ?_ ?_ (by decide))
      · rw [here]
        exact ⟨by decide, by decide⟩
      · rw [here]
        decide
  | number sender =>
      obtain ⟨here, isNext⟩ := Option.ite_none_right_eq_some.mp taken
      cases isNext
      exact Holds.keep rfl (holds.number here)
  | send sender =>
      obtain ⟨here, isNext⟩ := Option.ite_none_right_eq_some.mp taken
      cases isNext
      exact Holds.keep rfl (holds.send here)
  | deactivate sender =>
      obtain ⟨here, isNext⟩ := Option.ite_none_right_eq_some.mp taken
      cases isNext
      exact Holds.keep rfl (holds.deactivate here)

/-- What holds behind every run. -/
theorem Holds.run
    {total : RcvrTotal}
    {actions : List (ClientAction Address)}
    {s : Clients Address}
    (reached : PartialRun.run (Clients.step total) Clients.start actions = some s) :
    ∃ counts, Holds (startersOf actions) counts s := by
  refine
    PartialRun.invariant_history
      (fun actions s => ∃ counts, Holds (startersOf actions) counts s)
      ⟨_, Holds.start⟩ ?_ reached
  rintro history s action next ⟨counts, holds⟩ taken
  rw [startersOf_append]
  exact holds.step taken

/--
In every run: the frames on the network are those of one START after the other, each to the
client that has asked for it and to no other, numbered from zero.
-/
theorem network_account
    {total : RcvrTotal}
    {actions : List (ClientAction Address)}
    {s : Clients Address}
    (reached : run (Clients.step total) Clients.start actions = some s) :
    ∃ counts : Nat → Nat,
      s.network =
        (List.range (startersOf actions).length).flatMap fun sender =>
          (List.range (counts sender)).map fun number =>
            ((startersOf actions)[sender]?, UInt32.ofNat number) := by
  obtain ⟨counts, holds⟩ := Holds.run reached
  refine ⟨counts, holds.sent.trans ?_⟩
  rw [holds.asked]
  by_cases starting : s.Starting
  · -- the thread of the last START has not been created
    obtain ⟨_, none⟩ := holds.fresh s.started (Nat.le_refl _)
    rw [if_pos starting, List.range_succ, List.flatMap_append, List.flatMap_singleton, none]
    exact (List.append_nil _).symm
  · rw [if_neg starting]
    rfl

/-- A START or a STOP. -/
def commandDatagram (way : UInt8) : List UInt8 :=
  [0xef, 0xfe, 0x04, way] ++ List.replicate 60 0

/-- What `main` does behind the wait of a START. -/
def creation : List (ClientAction Nat) :=
  [.observe, .clearAddr, .storeAddr, .enable, .activate, .create true]

/-- A client takes over while a frame is on its way to another. -/
def takenOver : List (ClientAction Nat) :=
  [.receive (some (1, commandDatagram 1))] ++ creation ++
    [.check 0, .release 0, .number 0, .send 0, .check 0, .release 0, .number 0,
      .receive (some (2, commandDatagram 1)), .send 0, .check 0, .deactivate 0] ++
    creation ++ [.check 1, .release 1, .number 1, .send 1]

theorem network_account_takenOver :
    ∃ s,
      run (Clients.step ⟨1, by decide, by decide⟩) Clients.start takenOver = some s ∧
        s.network = [(some 1, 0), (some 1, 1), (some 2, 0)] ∧
        ∃ counts : Nat → Nat,
          s.network =
            (List.range (startersOf takenOver).length).flatMap fun sender =>
              (List.range (counts sender)).map fun number =>
                ((startersOf takenOver)[sender]?, UInt32.ofNat number) := by
  have sent :
      (run (Clients.step ⟨1, by decide, by decide⟩) Clients.start takenOver).map
          Clients.network =
        some [(some 1, 0), (some 1, 1), (some 2, 0)] := by
    decide +kernel
  obtain ⟨s, reached, network⟩ := Option.map_eq_some_iff.mp sent
  exact ⟨s, reached, network, network_account reached⟩

/-! ## Behind a STOP -/

/-- No sender is left, and none is about to be created. -/
def Silent (s : Clients Address) : Prop :=
  ¬ s.Starting ∧ ∀ sender, ¬ (s.senderPc sender).Live

/-- A STOP is waited for, or behind. -/
def Stopping (s : Clients Address) : Prop :=
  s.main = .stopWaiting ∨ s.Silent

/-- Without a START, `main` goes only between its loop and the wait of a STOP. -/
theorem receive_of_noStart
    {total : RcvrTotal}
    {s : Clients Address}
    {received : Option (Address × List UInt8)}
    {receiver : Receiver}
    {outcome : Outcome Address}
    (noStart : startersOf [.receive received] = [])
    (taken : Hpsdr.receive total s.receiver received = some (receiver, outcome))
    (t : Clients Address) :
    (afterOutcome t outcome = t ∨
        afterOutcome t outcome = { t with enableThread := false, main := .stopWaiting }) := by
  have commands := receive_commands taken
  rw [startersOf_receive, Option.toList_eq_nil_iff] at noStart
  cases outcome with
  | start client =>
      have starts := starter?_eq_some_iff.mpr ((commands.1 client).mp rfl)
      rw [noStart] at starts
      cases starts
  | stop => exact .inr rfl
  | _ => exact .inl rfl

/-- Without a START, nothing more is sent. -/
theorem Silent.step
    {total : RcvrTotal}
    {s next : Clients Address}
    {action : ClientAction Address}
    (silent : s.Silent)
    (noStart : startersOf [action] = [])
    (taken : s.step total action = some next) :
    next.Silent ∧ next.network = s.network := by
  obtain ⟨outside, gone⟩ := silent
  have notLive :
      ∀ sender pc, s.senderPc sender = pc → pc ≠ .absent ∧ pc ≠ .done → False := by
    rintro sender pc rfl live
    exact gone sender live
  have notStarting :
      ∀ main, s.main = main → main ≠ .idle ∧ main ≠ .stopWaiting → False := by
    rintro main rfl starting
    exact outside starting
  unfold Clients.step at taken
  cases action with
  | receive received =>
      obtain ⟨idle, taken⟩ := Option.ite_none_right_eq_some.mp taken
      obtain ⟨⟨receiver, outcome⟩, isReceived, rfl⟩ := Option.map_eq_some_iff.mp taken
      rcases receive_of_noStart noStart isReceived
        { s with
          receiver := receiver
          addrFrom := (received.map Prod.fst).or s.addrFrom } with same | stops
      · rw [same]
        exact ⟨⟨outside, gone⟩, rfl⟩
      · rw [stops]
        exact ⟨⟨fun starting => starting.2 rfl, gone⟩, rfl⟩
  | observe =>
      obtain ⟨_, taken⟩ := Option.ite_none_left_eq_some.mp taken
      by_cases stopping : s.main = .stopWaiting
      · rw [if_pos stopping] at taken
        cases taken
        exact ⟨⟨fun starting => starting.1 rfl, gone⟩, rfl⟩
      · rw [if_neg stopping] at taken
        obtain ⟨starting, _⟩ := Option.ite_none_right_eq_some.mp taken
        exact (notStarting _ starting (by decide)).elim
  | clearAddr | storeAddr | enable | activate | create =>
      obtain ⟨here, _⟩ := Option.ite_none_right_eq_some.mp taken
      exact (notStarting _ here (by decide)).elim
  | check sender | release sender | number sender | send sender | deactivate sender =>
      obtain ⟨here, _⟩ := Option.ite_none_right_eq_some.mp taken
      exact (notLive sender _ here (by decide)).elim

/-- The wait of a STOP ends when no sender is left. -/
theorem Stopping.step
    {total : RcvrTotal}
    {clients : List Address}
    {counts : Nat → Nat}
    {s next : Clients Address}
    {action : ClientAction Address}
    (stopping : s.Stopping)
    (holds : Holds clients counts s)
    (noStart : startersOf [action] = [])
    (taken : s.step total action = some next) :
    next.Stopping := by
  rcases stopping with waiting | silent
  · have notMain : ∀ main, s.main = main → main ≠ .stopWaiting → False := by
      rintro main rfl differs
      exact differs waiting
    unfold Clients.step at taken
    cases action with
    | receive | clearAddr | storeAddr | enable | activate | create =>
        obtain ⟨here, _⟩ := Option.ite_none_right_eq_some.mp taken
        exact (notMain _ here (by decide)).elim
    | observe =>
        obtain ⟨inactive, taken⟩ := Option.ite_none_left_eq_some.mp taken
        rw [if_pos waiting] at taken
        cases taken
        have gone := holds.gone (.inl (Bool.eq_false_iff.mpr inactive))
        exact .inr ⟨fun starting => starting.1 rfl, gone⟩
    | check sender | release sender | number sender | send sender | deactivate sender =>
        obtain ⟨_, isNext⟩ := Option.ite_none_right_eq_some.mp taken
        cases isNext
        exact .inl waiting
  · exact .inr (silent.step noStart taken).1

/-- What steps without a START keep is kept by a run without one. -/
theorem kept_of_noStart
    {total : RcvrTotal}
    (Kept : Clients Address → Prop)
    (preserved :
      ∀ {s next action},
        Kept s →
          startersOf [action] = [] → Clients.step total s action = some next → Kept next)
    {actions : List (ClientAction Address)}
    {s final : Clients Address}
    (kept : Kept s)
    (noStart : startersOf actions = [])
    (reached : run (Clients.step total) s actions = some final) :
    Kept final := by
  refine
    PartialRun.invariant_history (fun actions s => startersOf actions = [] → Kept s)
      (fun _ => kept) ?_ reached noStart
  intro history s action next keptBefore taken noStart
  rw [startersOf_append, List.append_eq_nil_iff] at noStart
  exact preserved (keptBefore noStart.1) noStart.2 taken

/--
In every run: once `main` is back in its loop behind a STOP, not one frame is sent before
another START has come.
-/
theorem stop_silences
    {total : RcvrTotal}
    {client : Address}
    {datagram : List UInt8}
    (stops : requestOf datagram = some .stop)
    {first waiting later : List (ClientAction Address)}
    {answered final : Clients Address}
    (reached :
      run (Clients.step total) Clients.start
          (first ++ .receive (some (client, datagram)) :: waiting) =
        some answered)
    (back : answered.main = .idle)
    (noStart : startersOf (waiting ++ later) = [])
    (goesOn : run (Clients.step total) answered later = some final) :
    final.network = answered.network := by
  rw [startersOf_append, List.append_eq_nil_iff] at noStart
  obtain ⟨before, reachedBefore, reached⟩ := PartialRun.run_append_eq_some.mp reached
  rw [PartialRun.run_cons] at reached
  obtain ⟨stopped, taken, reached⟩ := Option.bind_eq_some_iff.mp reached
  obtain ⟨counts, holds⟩ := Holds.run reachedBefore
  obtain ⟨after, holdsAfter⟩ := holds.step taken
  have stopping : stopped.main = .stopWaiting := by
    obtain ⟨_, taken⟩ := Option.ite_none_right_eq_some.mp taken
    obtain ⟨⟨receiver, outcome⟩, isReceived, rfl⟩ := Option.map_eq_some_iff.mp taken
    obtain rfl := (receive_commands isReceived).2.mpr ⟨client, datagram, rfl, stops⟩
    rfl
  have answeredStopping :
      (∃ clients counts, Holds clients counts answered) ∧ answered.Stopping := by
    refine
      kept_of_noStart
        (fun s => (∃ clients counts, Holds clients counts s) ∧ s.Stopping) ?_
        ⟨⟨_, _, holdsAfter⟩, .inl stopping⟩ noStart.1 reached
    rintro s next action ⟨⟨clients, counts, holds⟩, stopping⟩ noStart taken
    obtain ⟨counts, holdsNext⟩ := holds.step taken
    exact ⟨⟨_, counts, holdsNext⟩, stopping.step holds noStart taken⟩
  rcases answeredStopping.2 with waits | silent
  · rw [back] at waits
    cases waits
  · have kept : final.Silent ∧ final.network = answered.network := by
      refine
        kept_of_noStart (fun s => s.Silent ∧ s.network = answered.network) ?_ ⟨silent, rfl⟩
          noStart.2 goesOn
      rintro s next action ⟨silent, same⟩ noStart taken
      obtain ⟨silentNext, sameNext⟩ := silent.step noStart taken
      exact ⟨silentNext, sameNext.trans same⟩
    exact kept.2

/-- A STOP in the middle of a frame. -/
def stoppedShort : List (ClientAction Nat) :=
  [.send 0, .check 0, .deactivate 0, .observe]

theorem stop_silences_short :
    ∃ answered final,
      run (Clients.step ⟨1, by decide, by decide⟩) Clients.start
            (([.receive (some (1, commandDatagram 1))] ++ creation ++
                [.check 0, .release 0, .number 0]) ++
              .receive (some (1, commandDatagram 0)) :: stoppedShort) =
          some answered ∧
        run (Clients.step ⟨1, by decide, by decide⟩) answered [.receive none] =
            some final ∧
          final.network = answered.network := by
  have back :
      (run (Clients.step ⟨1, by decide, by decide⟩) Clients.start
          (([.receive (some (1, commandDatagram 1))] ++ creation ++
              [.check 0, .release 0, .number 0]) ++
            .receive (some (1, commandDatagram 0)) :: stoppedShort)).map Clients.main =
        some .idle := by
    decide +kernel
  obtain ⟨answered, reached, idle⟩ := Option.map_eq_some_iff.mp back
  have goesOn :
      run (Clients.step ⟨1, by decide, by decide⟩) answered [.receive none] =
        some
          { answered with
            receiver :=
              { answered.receiver with
                buffer := BoundedBuffer.blit 0 idBytes answered.receiver.buffer }
            addrFrom := (none : Option Nat).or answered.addrFrom } := by
    rw [PartialRun.run_cons, Clients.step, if_pos idle]
    rfl
  exact ⟨answered, _, reached, goesOn,
    stop_silences rfl reached idle rfl goesOn⟩

end Clients

end LibRtlSdr.Hpsdr
