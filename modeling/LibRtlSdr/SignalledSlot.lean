import LibRtlSdr.PartialRun
import Mathlib.Data.List.Sublists

namespace LibRtlSdr.SignalledSlot

/-!
# A slot for one value, and a thread that waits for a signal

A producer stores a value over the one that is there, and signals afterwards.  The
consumer waits for a signal without looking at the slot, and takes what is in it.  A
signal that finds nobody waiting is lost; so a value may be overwritten before it is
taken, and a value that has been taken may be taken again.  The slot keeps account of
both.
-/

/-- Where the consumer is. -/
inductive Waiter where
  /-- It works, or is about to wait. -/
  | away
  | waiting
  | woken
deriving DecidableEq

/-- The slot, both ends of it, and what has happened to the values. -/
structure Slot (V : Type) where
  /-- The value that has been stored and not taken yet. -/
  unread : Option V
  /-- A value has been stored and not signalled yet. -/
  signalDue : Bool
  waiter : Waiter
  /-- The values, as they were stored. -/
  stored : List V
  /-- The values, as they were taken for the first time. -/
  taken : List V
  /-- The values that were overwritten before they were taken. -/
  lost : List V
  /-- How often a value was taken again. -/
  stale : Nat
  /-- How often the consumer was woken by anything but the signal of a value. -/
  nudges : Nat

variable {V : Type}

/-- An empty slot. -/
def Slot.empty : Slot V where
  unread := none
  signalDue := false
  waiter := .away
  stored := []
  taken := []
  lost := []
  stale := 0
  nudges := 0

/-- A value is stored. -/
def Slot.store (s : Slot V) (value : V) : Slot V :=
  { s with
    unread := some value
    signalDue := true
    stored := s.stored ++ [value]
    lost := s.lost ++ s.unread.toList }

/-- A waiting consumer is woken. -/
def Waiter.signalled : Waiter → Waiter
  | .waiting => .woken
  | other => other

/-- The signal behind a value. -/
def Slot.signal (s : Slot V) : Slot V :=
  { s with signalDue := false, waiter := s.waiter.signalled }

/-- Another signal, or a spurious wake-up. -/
def Slot.nudge (s : Slot V) : Slot V :=
  { s with waiter := s.waiter.signalled, nudges := s.nudges + 1 }

/-- The consumer begins to wait. -/
def Slot.wait (s : Slot V) : Slot V :=
  { s with waiter := .waiting }

/-- The consumer takes what is there, and goes away. -/
def Slot.take (s : Slot V) : Slot V :=
  { s with
    waiter := .away
    unread := none
    taken := s.taken ++ s.unread.toList
    stale := if s.unread.isNone then s.stale + 1 else s.stale }

/-- What can happen at a slot. -/
inductive Action (V : Type) where
  | store (value : V)
  | signal
  | nudge
  | wait
  | take

/-- The producer signals before it stores again; the consumer waits and takes in turn. -/
def step (s : Slot V) : Action V → Option (Slot V)
  | .store value =>
      if s.signalDue then none else some (s.store value)
  | .signal =>
      if s.signalDue then some s.signal else none
  | .nudge =>
      some s.nudge
  | .wait =>
      if s.waiter = .away then some s.wait else none
  | .take =>
      if s.waiter = .woken then some s.take else none

/-! ## Accounts -/

/-- One for a consumer that is woken. -/
def Waiter.count : Waiter → Nat
  | .woken => 1
  | _ => 0

/-- The account of a slot. -/
structure Accounted (s : Slot V) : Prop where
  /-- The values that were taken, and the one that can be taken, are in order. -/
  order : (s.taken ++ s.unread.toList).Sublist s.stored
  /-- Each value was taken once, was overwritten, or can be taken. -/
  values : s.taken.length + s.lost.length + s.unread.toList.length = s.stored.length
  /-- Each signal was used up, is due or has woken the consumer. -/
  signals :
    s.stale + s.waiter.count + s.signalDue.toNat ≤
      s.lost.length + s.unread.toList.length + s.nudges
  /-- A value is taken again only at the cost of one that was overwritten. -/
  stale : s.stale ≤ s.lost.length + s.nudges

theorem accounted_empty :
    Accounted (.empty : Slot V) where
  order := .slnil
  values := rfl
  signals := Nat.le_refl _
  stale := Nat.le_refl _

section Steps

variable {s : Slot V}

theorem Accounted.store
    (accounted : Accounted s)
    (signalled : s.signalDue = false)
    (value : V) :
    Accounted (s.store value) := by
  have values := accounted.values
  have signals := accounted.signals
  rw [signalled] at signals
  have stale := accounted.stale
  constructor
  · exact ((List.sublist_append_left _ _).trans accounted.order).append_right [value]
  · simp only [Slot.store, List.length_append, Option.toList_some, List.length_singleton]
    omega
  · simp only [Slot.store, List.length_append, Option.toList_some, List.length_singleton,
      Bool.toNat_true]
    simp only [Bool.toNat_false] at signals
    omega
  · simp only [Slot.store, List.length_append]
    omega

/-- A consumer that is woken has waited. -/
theorem count_signalled
    (waiter : Waiter) :
    waiter.signalled.count ≤ waiter.count + 1 := by
  cases waiter <;> decide

theorem Accounted.signal
    (accounted : Accounted s)
    (due : s.signalDue = true) :
    Accounted s.signal := by
  have signals := accounted.signals
  have woken := count_signalled s.waiter
  rw [due] at signals
  refine ⟨accounted.order, accounted.values, ?_, accounted.stale⟩
  simp only [Slot.signal, Bool.toNat_false]
  simp only [Bool.toNat_true] at signals
  omega

theorem Accounted.nudge
    (accounted : Accounted s) :
    Accounted s.nudge := by
  have signals := accounted.signals
  have stale := accounted.stale
  have woken := count_signalled s.waiter
  refine ⟨accounted.order, accounted.values, ?_, ?_⟩
  · simp only [Slot.nudge]
    omega
  · simp only [Slot.nudge]
    omega

theorem Accounted.wait
    (accounted : Accounted s) :
    Accounted s.wait := by
  have signals := accounted.signals
  refine ⟨accounted.order, accounted.values, ?_, accounted.stale⟩
  simp only [Slot.wait, Waiter.count]
  omega

theorem Accounted.take
    (accounted : Accounted s)
    (woken : s.waiter = .woken) :
    Accounted s.take := by
  have values := accounted.values
  have signals := accounted.signals
  have stale := accounted.stale
  rw [woken] at signals
  simp only [Waiter.count] at signals
  cases known : s.unread with
  | none =>
      rw [known] at values signals
      simp only [Option.toList_none, List.length_nil] at values signals
      have order := accounted.order
      rw [known, Option.toList_none] at order
      refine ⟨?_, ?_, ?_, ?_⟩
      · simpa [Slot.take, known] using order
      · simpa [Slot.take, known] using values
      · simp only [Slot.take, known, Option.isNone_none, if_true, Waiter.count,
          Option.toList_none, List.length_nil]
        omega
      · simp only [Slot.take, known, Option.isNone_none, if_true]
        omega
  | some value =>
      rw [known] at values signals
      simp only [Option.toList_some, List.length_singleton] at values signals
      have order := accounted.order
      rw [known] at order
      refine ⟨?_, ?_, ?_, ?_⟩
      · simpa [Slot.take, known] using order
      · simp only [Slot.take, known, List.length_append, Option.toList_some,
          List.length_singleton, Option.toList_none, List.length_nil]
        omega
      · simp only [Slot.take, known, Option.isNone_some, Bool.false_eq_true, if_false,
          Waiter.count, Option.toList_none, List.length_nil]
        omega
      · simp only [Slot.take, known, Option.isNone_some, Bool.false_eq_true, if_false]
        exact stale

/-- Whatever happens, the account is kept. -/
theorem Accounted.step
    (accounted : Accounted s)
    {action : Action V}
    {next : Slot V}
    (taken : step s action = some next) :
    Accounted next := by
  cases action with
  | store value =>
      simp only [SignalledSlot.step, Option.ite_none_left_eq_some, Option.some.injEq] at taken
      obtain ⟨signalled, rfl⟩ := taken
      exact accounted.store (by simpa using signalled) value
  | signal =>
      simp only [SignalledSlot.step, Option.ite_none_right_eq_some, Option.some.injEq] at taken
      obtain ⟨due, rfl⟩ := taken
      exact accounted.signal due
  | nudge =>
      cases taken
      exact accounted.nudge
  | wait =>
      simp only [SignalledSlot.step, Option.ite_none_right_eq_some, Option.some.injEq] at taken
      obtain ⟨-, rfl⟩ := taken
      exact accounted.wait
  | take =>
      simp only [SignalledSlot.step, Option.ite_none_right_eq_some, Option.some.injEq] at taken
      obtain ⟨woken, rfl⟩ := taken
      exact accounted.take woken

end Steps

/-- A take is counted, as a first one or as another one. -/
theorem length_take
    (s : Slot V) :
    s.take.taken.length + s.take.stale = s.taken.length + s.stale + 1 := by
  cases known : s.unread with
  | none =>
      simp only [Slot.take, known, Option.toList_none, List.append_nil, Option.isNone_none,
        if_true]
      omega
  | some value =>
      simp only [Slot.take, known, Option.toList_some, List.length_append,
        List.length_singleton, Option.isNone_some, Bool.false_eq_true, if_false]
      omega

/-- Nothing was overwritten unread, and nobody else woke the consumer. -/
structure Kept (s : Slot V) : Prop where
  lost : s.lost = []
  nudges : s.nudges = 0

/-- What was kept was kept before. -/
theorem Kept.of_step
    {s next : Slot V}
    {action : Action V}
    (taken : step s action = some next)
    (kept : Kept next) :
    Kept s := by
  cases action with
  | store value =>
      simp only [SignalledSlot.step, Option.ite_none_left_eq_some, Option.some.injEq] at taken
      obtain ⟨-, rfl⟩ := taken
      exact ⟨(List.append_eq_nil_iff.mp kept.lost).1, kept.nudges⟩
  | nudge =>
      cases taken
      exact absurd kept.nudges (Nat.succ_ne_zero _)
  | signal | wait | take =>
      simp only [SignalledSlot.step, Option.ite_none_right_eq_some, Option.some.injEq] at taken
      obtain ⟨-, rfl⟩ := taken
      exact ⟨kept.lost, kept.nudges⟩

/-! ## What follows from the account -/

/-- Taking again makes up for no more than what was overwritten. -/
theorem Accounted.takes_le
    {s : Slot V}
    (accounted : Accounted s) :
    s.taken.length + s.stale ≤ s.stored.length + s.nudges := by
  have values := accounted.values
  have stale := accounted.stale
  omega

/-- Where all was kept, each value is taken once. -/
theorem Accounted.exact
    {s : Slot V}
    (accounted : Accounted s)
    (kept : Kept s) :
    s.taken ++ s.unread.toList = s.stored ∧ s.stale = 0 := by
  have values := accounted.values
  have stale := accounted.stale
  rw [kept.lost, List.length_nil] at values stale
  rw [kept.nudges] at stale
  constructor
  · apply accounted.order.eq_of_length
    rw [List.length_append]
    omega
  · omega

/-- Where all was kept, the consumer takes a value that has been stored. -/
theorem Accounted.unread_of_take
    {s : Slot V}
    (accounted : Accounted s.take)
    (kept : Kept s.take) :
    ∃ value, s.unread = some value := by
  have fresh := (accounted.exact kept).2
  cases known : s.unread with
  | none =>
      rw [Slot.take, known] at fresh
      exact absurd fresh (Nat.succ_ne_zero _)
  | some value =>
      exact ⟨value, rfl⟩

/-- Where all was kept, the producer finds the slot read. -/
theorem Kept.unread_of_store
    {s : Slot V}
    {value : V}
    (kept : Kept (s.store value)) :
    s.unread = none := by
  have none := (List.append_eq_nil_iff.mp kept.lost).2
  cases known : s.unread with
  | none => rfl
  | some before =>
      rw [known] at none
      cases none

end LibRtlSdr.SignalledSlot
