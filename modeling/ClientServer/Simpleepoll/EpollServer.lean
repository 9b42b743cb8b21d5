import Mathlib.Data.List.ReduceOption
import Mathlib.Data.List.Nodup
import Mathlib.Data.Nat.Basic
import Mathlib.Logic.Function.Basic
import Mathlib.Order.Basic

/-!
# `simpleepoll/main.cpp`: the workers of `EpollServer`

All workers wait on one edge-triggered epoll instance and handle what it reports by descriptor.
While one of them reads a connection, new activity on it may be reported to another one, and a
closed number stands for the next connection that is accepted.

Connections are numbered in the order in which they are accepted, and an event remembers which of
them it was reported for.  `log` has the `recv` and `close` calls: the connection that a worker
handled and the one that the call was done on.
-/

namespace ClientServer.Simpleepoll

/-- A descriptor of a connection, and which connection it stood for. -/
@[ext]
structure Client where
  fd : ℕ
  conn : ℕ
  deriving DecidableEq

/-- An entry of `events`: none for `server_fd`. -/
abbrev Event := Option Client

/-- Where a worker is, with the events that are left in its loop. -/
inductive Pc
  /-- Before `epoll_wait`. -/
  | waiting
  /-- At the head of the loop over the events. -/
  | dispatch (events : List Event)
  /-- Before `recv` in `handle_client`. -/
  | receiving (e : Client) (events : List Event)
  /-- Before `close` in `handle_client`. -/
  | closing (e : Client) (events : List Event)
  /-- Before `accept4` in `accept_connections`. -/
  | accepting (events : List Event)
  /-- Before `epoll_ctl` in `accept_connections`. -/
  | adding (e : Client) (events : List Event)
  /-- Before `close` in `accept_connections`. -/
  | dropping (e : Client) (events : List Event)
  /-- The thread has ended. -/
  | stopped
  deriving DecidableEq

/-- What `recv` answers: data, the end of the stream, `EAGAIN`, or another error. -/
inductive RecvAnswer
  | data
  | ended
  | again
  | failed
  deriving DecidableEq

/-- A system call on a connection. -/
inductive Call
  | recv (answer : RecvAnswer)
  | close
  deriving DecidableEq

/-- A `recv` behind which `handle_client` closes. -/
def Call.ends : Call → Bool
  | .recv .ended | .recv .failed => true
  | .recv .data | .recv .again | .close => false

/-- A call, who did it, for which connection, and on which. -/
structure Op (ι : Type*) where
  worker : ι
  owner : ℕ
  target : Option ℕ
  call : Call
  deriving DecidableEq

/-- The server, its descriptors and its workers. -/
structure EpollServer (ι : Type*) where
  running : Bool
  /-- The connection behind a descriptor. -/
  table : ℕ → Option ℕ
  /-- Whether a descriptor is in the interest set of the epoll instance. -/
  registered : ℕ → Bool
  /-- The number of connections accepted so far. -/
  accepted : ℕ
  worker : ι → Pc
  log : List (Op ι)

/-- The connections whose events the worker has or will have to handle. -/
def Pc.clients : Pc → List Client
  | .waiting | .stopped => []
  | .dispatch events | .accepting events | .adding _ events | .dropping _ events =>
    events.reduceOption
  | .receiving e events | .closing e events => e :: events.reduceOption

/-- The connection that the worker has accepted and not yet registered. -/
def Pc.fresh : Pc → Option Client
  | .adding e _ | .dropping e _ => some e
  | _ => none

/-- The connection that the worker is about to close in `handle_client`. -/
def Pc.closes : Pc → Option Client
  | .closing e _ => some e
  | _ => none

/-- The connection that the worker closes or registers next, whether the server runs or not. -/
def Pc.busyWith : Pc → Option Client
  | .closing e _ | .adding e _ | .dropping e _ => some e
  | _ => none

lemma Pc.mem_of_busyWith {pc : Pc} {e : Client} (h : e ∈ pc.busyWith) :
    e ∈ pc.clients ∨ e ∈ pc.fresh := by
  cases pc with
  | closing e' events =>
    rw [← Option.some_inj.mp h]
    exact .inl List.mem_cons_self
  | adding e' events | dropping e' events => exact .inr h
  | waiting | dispatch | receiving | accepting | stopped => cases h

lemma Pc.busyWith_of_fresh {pc : Pc} {e : Client} (h : e ∈ pc.fresh) : e ∈ pc.busyWith := by
  cases pc with
  | adding e' events | dropping e' events => exact h
  | waiting | dispatch | receiving | closing | accepting | stopped => cases h

lemma Pc.fresh_of_busyWith {pc : Pc} {e : Client} (hcloses : pc.closes = none)
    (h : e ∈ pc.busyWith) : e ∈ pc.fresh := by
  cases pc with
  | adding e' events | dropping e' events => exact h
  | closing e' events => cases hcloses
  | waiting | dispatch | receiving | accepting | stopped => cases h

namespace EpollServer

variable {ι : Type*}

/-- What happens. -/
inductive Action (ι : Type*)
  /-- `running` becomes false in `stop`. -/
  | stop
  /-- `epoll_wait` returns these events. -/
  | wait (i : ι) (events : List Event)
  /-- The next round of the loop over the events. -/
  | next (i : ι)
  | recv (i : ι) (answer : RecvAnswer)
  | close (i : ι)
  /-- `accept4` returns a descriptor or fails. -/
  | accept (i : ι) (fd : Option ℕ)
  /-- `epoll_ctl` succeeds or fails. -/
  | add (i : ι) (ok : Bool)
  /-- `close` after `epoll_ctl` has failed. -/
  | drop (i : ι)
  deriving DecidableEq

/-- `MAX_EVENTS`. -/
def maxEvents : ℕ := 64

/-- No connections, and every worker before its first `epoll_wait`. -/
def new : EpollServer ι := ⟨true, fun _ => none, fun _ => false, 0, fun _ => .waiting, []⟩

/-- `epoll_wait` may report the event. -/
def Reportable (s : EpollServer ι) : Event → Prop
  | none => True
  | some e => s.table e.fd = some e.conn ∧ s.registered e.fd = true

instance (s : EpollServer ι) : DecidablePred s.Reportable
  | none => isTrue trivial
  | some e => inferInstanceAs (Decidable (s.table e.fd = some e.conn ∧ s.registered e.fd = true))

/-- `epoll_wait` may return these events, each descriptor once. -/
def Reports (s : EpollServer ι) (events : List Event) : Prop :=
  events.length ≤ maxEvents ∧ events.Nodup ∧ ∀ e ∈ events, s.Reportable e

instance (s : EpollServer ι) : DecidablePred s.Reports := fun _ =>
  inferInstanceAs (Decidable (_ ∧ _ ∧ _))

/-- The call is done by a worker that handles `e`. -/
def record (s : EpollServer ι) (i : ι) (e : Client) (call : Call) : EpollServer ι :=
  { s with log := s.log ++ [⟨i, e.conn, s.table e.fd, call⟩] }

section Step

variable [DecidableEq ι]

/-- The worker goes on. -/
def setPc (s : EpollServer ι) (i : ι) (pc : Pc) : EpollServer ι :=
  { s with worker := Function.update s.worker i pc }

/-- `close`: the number is free, and no longer in the interest set. -/
def closeFd (s : EpollServer ι) (i : ι) (e : Client) : EpollServer ι :=
  { s.record i e .close with
    table := Function.update s.table e.fd none
    registered := Function.update s.registered e.fd false }

/-- `accept4` returned `fd` for the next connection. -/
def acceptFd (s : EpollServer ι) (fd : ℕ) : EpollServer ι :=
  { s with
    table := Function.update s.table fd (some s.accepted)
    accepted := s.accepted + 1 }

/-- `epoll_ctl` with `EPOLL_CTL_ADD` succeeded. -/
def addFd (s : EpollServer ι) (e : Client) : EpollServer ι :=
  { s with registered := Function.update s.registered e.fd true }

/-- Where a worker is after `recv`. -/
def afterRecv (e : Client) (events : List Event) : RecvAnswer → Pc
  | .data => .receiving e events
  | .again => .dispatch events
  | .ended | .failed => .closing e events

/-- One step, where the worker is there and the system may answer so. -/
def step (s : EpollServer ι) : Action ι → Option (EpollServer ι)
  | .stop => some { s with running := false }
  | .wait i events =>
    match s.worker i with
    | .waiting =>
      if s.running then
        if s.Reports events then some (s.setPc i (.dispatch events)) else none
      else some (s.setPc i .stopped)
    | _ => none
  | .next i =>
    match s.worker i with
    | .dispatch [] => some (s.setPc i .waiting)
    | .dispatch (event :: events) =>
      if s.running then
        match event with
        | none => some (s.setPc i (.accepting events))
        | some e => some (s.setPc i (.receiving e events))
      else some (s.setPc i .waiting)
    | _ => none
  | .recv i answer =>
    match s.worker i with
    | .receiving e events =>
      if s.running then
        -- on a number that is not open the call fails
        if s.table e.fd = none ∧ answer ≠ .failed then none
        else some ((s.record i e (.recv answer)).setPc i (afterRecv e events answer))
      else some (s.setPc i (.dispatch events))
    | _ => none
  | .close i =>
    match s.worker i with
    | .closing e events => some ((s.closeFd i e).setPc i (.dispatch events))
    | _ => none
  | .accept i fd =>
    match s.worker i with
    | .accepting events =>
      if s.running then
        match fd with
        | none => some (s.setPc i (.dispatch events))
        | some fd =>
          if s.table fd = none then
            some ((s.acceptFd fd).setPc i (.adding ⟨fd, s.accepted⟩ events))
          else none
      else some (s.setPc i (.dispatch events))
    | _ => none
  | .add i ok =>
    match s.worker i with
    | .adding e events =>
      if ok then
        if s.table e.fd = none ∨ s.registered e.fd = true then none
        else some ((s.addFd e).setPc i (.accepting events))
      else some (s.setPc i (.dropping e events))
    | _ => none
  | .drop i =>
    match s.worker i with
    | .dropping e events => some ((s.closeFd i e).setPc i (.accepting events))
    | _ => none

end Step

section Table

variable {s : EpollServer ι} {i : ι} {e : Client}

lemma table_closeFd {fd conn : ℕ} :
    (s.closeFd i e).table fd = some conn ↔ fd ≠ e.fd ∧ s.table fd = some conn := by
  by_cases hfd : fd = e.fd
  · subst hfd
    simp only [closeFd, Function.update_self, reduceCtorEq, ne_eq, not_true_eq_false, false_and]
  · simp only [closeFd, Function.update_of_ne hfd, ne_eq, hfd, not_false_eq_true, true_and]

lemma registered_closeFd {fd : ℕ} :
    (s.closeFd i e).registered fd = if fd = e.fd then false else s.registered fd :=
  Function.update_apply _ _ _ _

lemma table_acceptFd {fd fd' conn : ℕ} (hfd : s.table fd = none) :
    (s.acceptFd fd).table fd' = some conn ↔
      fd' = fd ∧ s.accepted = conn ∨ s.table fd' = some conn := by
  by_cases h : fd' = fd
  · subst h
    simp only [acceptFd, Function.update_self, Option.some.injEq, true_and, hfd, reduceCtorEq,
      or_false]
  · simp only [acceptFd, Function.update_of_ne h, h, false_and, false_or]

end Table

end EpollServer

end ClientServer.Simpleepoll
