import ClientServer.Library.Runs
import ClientServer.Mync.Epoll

/-!
# The server as threads that run `Epoll` objects

`MainEpoll` and its workers as a transition system.  The main thread runs the object that owns
the listening socket; every worker thread runs an object of its own from the start of `exec`,
through `delete data->subepoll`, to the end of `fullstop`.  A step takes one thread from one
point of its program to the next.  The points are where another thread can come in between: the
loop head, `epoll_wait`, each report of a batch, each turn of the drain loop, of the accept loop
and of `std::min_element`, the two parts of `push_external_socket`, each call of
`show_shared_stats`, and each part of `fullstop`.

`ONE_THREAD_MODE` is the case of no workers.  A thrown exception is caught by nobody and ends
the process.  The kernel gives an accepted connection any number that is not open.  A call on a
worker that is already deleted acts on the fields it had: the steps say nothing better about
memory that was freed.

Left out: the construction of the threads (the steps start when all of them run), the counter
of the eventfd (a report on it may come at any time), and what is printed.
-/

namespace ClientServer.Mync

open Std

/-! ## Threads -/

/-- The main thread, or one of `n` workers. -/
abbrev Agent (n : ℕ) := Option (Fin n)

/-- How far `fullstop` has come. -/
inductive Stage
  | socket
  | clients (fds : List Fd)
  | queue
  | epfd
  | timer
  | wakeup
  | flags
  deriving DecidableEq

/-- The points of the program of a thread; `rest` are the reports of the batch that are still to
be handled. -/
inductive Pc (n : ℕ)
  | loopHead
  | waiting
  | events (rest : List Report)
  /-- In the drain loop, with the mutex of the queue held. -/
  | draining (rest : List Report)
  /-- About to call `accept4`. -/
  | accepting (rest : List Report)
  /-- About to take the accepted connection over. -/
  | adopting (fd : Fd) (st : Stats) (rest : List Report)
  /-- In `std::min_element`: `best` is the smallest so far, `k` the next to be compared. -/
  | choosing (fd : Fd) (st : Stats) (best : Fin n) (k : ℕ) (rest : List Report)
  /-- About to enter `push_external_socket` of worker `w`. -/
  | pushing (fd : Fd) (st : Stats) (w : Fin n) (rest : List Report)
  /-- About to write to the eventfd of worker `w`. -/
  | waking (w : Fin n) (rest : List Report)
  /-- In the first loop of `show_shared_stats`. -/
  | counting (i : ℕ) (rest : List Report)
  /-- In the second loop of `show_shared_stats`. -/
  | printing (i : ℕ) (rest : List Report)
  /-- `exec` has returned. -/
  | returned
  | stopping (stage : Stage)
  /-- The destructor has run. -/
  | deleted
  deriving DecidableEq

/-- A thread and the object it runs. -/
structure Thread (n : ℕ) where
  epoll : Epoll
  pc : Pc n

/-- The answers of system calls that one step of a thread may need. -/
structure Input extends Answers where
  accept : AcceptAnswer
  /-- The result of `add_fd`. -/
  added : Bool

namespace Pc

variable {n : ℕ}

/-- The report handled next. -/
def report? : Pc n → Option Report
  | .events (r :: _) => some r
  | _ => none

lemma report?_eq_some {pc : Pc n} {r : Report} :
    pc.report? = some r ↔ ∃ rest, pc = .events (r :: rest) := by
  constructor
  · intro h
    unfold report? at h
    split at h
    · cases h
      exact ⟨_, rfl⟩
    · cases h
  · rintro ⟨rest, rfl⟩
    rfl

/-- The mutex of the thread's queue is held by the thread. -/
def locks : Pc n → Bool
  | .draining _ => true
  | .stopping .queue => true
  | _ => false

/-- Where a thread goes after a report. -/
def after (e : Epoll) (r : Report) (a : Answers) (rest : List Report) : Pc n :=
  match e.dispatch r with
  | .timer => if a.expired && e.showTimerStats then .counting 0 rest else .events rest
  | .socketData => if e.isListen then .accepting rest else .events rest
  | _ => .events rest

end Pc

namespace Thread

variable {n : ℕ}

/-- One report, or the entry of the drain loop with the eventfd read. -/
def handle (t : Thread n) (r : Report) (rest : List Report) (a : Answers) :
    Except Thrown (Thread n × List Call) :=
  if t.epoll.dispatch r = .wakeup then .ok ({ t with pc := .draining rest }, [])
  else (t.epoll.handleReport r a).map fun (e, calls) => (⟨e, .after t.epoll r a rest⟩, calls)

/-- One part of `fullstop`. -/
def stop (t : Thread n) : Stage → Thread n × List Call
  | .socket =>
    let (e, calls) := t.epoll.stopSocket
    (⟨e, .stopping (.clients e.clients.keys)⟩, calls)
  | .clients [] => (⟨t.epoll.clearClients, .stopping .queue⟩, [])
  | .clients (fd :: fds) =>
    let (e, calls) := t.epoll.removeClient fd
    (⟨e, .stopping (.clients fds)⟩, calls)
  | .queue =>
    match t.epoll.pendingNewSocks with
    | [] => ({ t with pc := .stopping .epfd }, [])
    | (fd, _) :: rest =>
      let (e, calls) := t.epoll.stopPending fd rest
      (⟨e, .stopping .queue⟩, calls)
  | .epfd =>
    let (e, calls) := t.epoll.stopEpfd
    (⟨e, .stopping .timer⟩, calls)
  | .timer =>
    let (e, calls) := t.epoll.stopTimer
    (⟨e, .stopping .wakeup⟩, calls)
  | .wakeup =>
    let (e, calls) := t.epoll.stopWakeup
    (⟨e, .stopping .flags⟩, calls)
  | .flags => (⟨t.epoll.stopFlags, .deleted⟩, [])

/-- One step of a thread that concerns no other thread.  At the points where another one is
concerned nothing happens here. -/
def advance (t : Thread n) (shouldStop : Bool) (i : Input) :
    Except Thrown (Thread n × List Call) :=
  match t.pc with
  | .loopHead =>
    if t.epoll.stdinClosed || t.epoll.socketClosed || shouldStop then
      .ok ({ t with pc := .returned }, [])
    else .ok ({ t with pc := .waiting }, [])
  | .events [] => .ok ({ t with pc := .loopHead }, [])
  | .events (r :: rest) => t.handle r rest i.toAnswers
  | .draining rest =>
    match t.epoll.pendingNewSocks with
    | [] => .ok ({ t with pc := .events rest }, [])
    | (fd, st) :: queue =>
      let (e, calls) := t.epoll.drainOne fd st queue
      .ok ({ t with epoll := e }, calls)
  | .adopting fd st rest =>
    let (e, calls) := t.epoll.adopt fd st i.added
    .ok (⟨e, .accepting rest⟩, calls)
  | .waking _ rest => .ok ({ t with pc := .accepting rest }, [])
  | .counting k rest =>
    .ok ({ t with pc := if k < n then .counting (k + 1) rest else .printing 0 rest }, [])
  | .printing k rest =>
    .ok ({ t with pc := if k < n then .printing (k + 1) rest else .events rest }, [])
  | .stopping stage => .ok (t.stop stage)
  | _ => .ok (t, [])

end Thread

/-! ## The process -/

/-- The state of the process. -/
structure Server (n : ℕ) where
  threads : Agent n → Thread n
  /-- The descriptors that are open. -/
  opened : Finset Fd
  /-- `g_should_stop`. -/
  shouldStop : Bool
  /-- An exception has ended the process. -/
  aborted : Bool
  /-- How many connections `accept4` has returned. -/
  accepted : ℕ

/-- What can happen next: a stop signal, an `epoll_wait` that returns, or a thread that goes on. -/
inductive ServerAct (n : ℕ)
  | signal
  | wait (t : Agent n) (batch : List Report)
  | run (t : Agent n) (input : Input)

namespace Server

variable {n : ℕ}

/-- `count_clients` of worker `w`. -/
def countClients (s : Server n) (w : Fin n) : ℤ := (s.threads (some w)).epoll.sizeClients

/-- Thread `t` is at `pc`, the rest as before. -/
def goto (s : Server n) (t : Agent n) (pc : Pc n) : Server n :=
  { s with threads := Function.update s.threads t { s.threads t with pc := pc } }

@[simp] lemma pc_goto_self (s : Server n) (t : Agent n) (pc : Pc n) :
    ((s.goto t pc).threads t).pc = pc := by
  show (Function.update s.threads t _ t).pc = pc
  rw [Function.update_self]

lemma threads_goto_of_ne (s : Server n) {t a : Agent n} (pc : Pc n) (h : a ≠ t) :
    (s.goto t pc).threads a = s.threads a := Function.update_of_ne h ..

/-- A step of one thread and what it closes. -/
def put (s : Server n) (t : Agent n) (t' : Thread n) (calls : List Call) : Server n :=
  { s with
    threads := Function.update s.threads t t'
    opened := s.opened \ (closes calls).toFinset }

/-- Where the accept loop goes with a connection: to the first step of `balance_socket`, or on
to keep it when there are no workers. -/
def place (fd : Fd) (st : Stats) (rest : List Report) : Pc n :=
  if h : 0 < n then .choosing fd st ⟨0, h⟩ 1 rest else .adopting fd st rest

/-- The critical section of `push_external_socket` of worker `w`. -/
def push (s : Server n) (w : Fin n) (fd : Fd) (st : Stats) : Server n :=
  { s with
    threads := Function.update s.threads (some w)
      { s.threads (some w) with
        epoll := (s.threads (some w)).epoll.pushExternalSocket fd st } }

lemma threads_push_self (s : Server n) (w : Fin n) (fd : Fd) (st : Stats) :
    (s.push w fd st).threads (some w) =
      { s.threads (some w) with
        epoll := (s.threads (some w)).epoll.pushExternalSocket fd st } :=
  Function.update_self ..

lemma threads_push_of_ne (s : Server n) {w : Fin n} {a : Agent n} (fd : Fd) (st : Stats)
    (h : a ≠ some w) : (s.push w fd st).threads a = s.threads a :=
  Function.update_of_ne h ..

/-- A batch that `epoll_wait` of thread `t` may return. -/
def Returns (s : Server n) (t : Agent n) (batch : List Report) : Prop :=
  (s.threads t).pc = .waiting ∧ batch.length ≤ 4 ∧ (batch.map (·.fd)).Nodup ∧
    ∀ r ∈ batch, (s.threads t).epoll.Watches r.fd

instance (s : Server n) (t : Agent n) (batch : List Report) : Decidable (s.Returns t batch) :=
  inferInstanceAs (Decidable (_ ∧ _ ∧ _ ∧ _))

/-- One step of thread `t`, with the calls it makes. -/
def runThread (s : Server n) (t : Agent n) (i : Input) : Option (Server n × List Call) :=
  match (s.threads t).pc with
  | .waiting => none
  | .deleted => none
  | .accepting rest =>
    match i.accept with
    | .accepted fd ip now =>
      if 0 ≤ fd ∧ fd ∉ s.opened then
        some ({ s.goto t (place fd (Stats.accepted ip now) rest) with
          opened := insert fd s.opened
          accepted := s.accepted + 1 }, [])
      else none
    | .again => some (s.goto t (.events rest), [])
    | .error => some ({ s with aborted := true }, [])
  | .choosing fd st best k rest =>
    if h : k < n then
      let best' := if s.countClients ⟨k, h⟩ < s.countClients best then ⟨k, h⟩ else best
      some (s.goto t (.choosing fd st best' (k + 1) rest), [])
    else some (s.goto t (.pushing fd st best rest), [])
  | .pushing fd st w rest =>
    if (s.threads (some w)).pc.locks then none
    else some ((s.goto t (.waking w rest)).push w fd st, [])
  | .returned =>
    -- `~MainEpoll` joins the workers before `~Epoll` runs `fullstop`
    if t = none → ∀ w, (s.threads (some w)).pc = .deleted then
      some ({ s.goto t (.stopping .socket) with shouldStop := true }, [])
    else none
  | _ =>
    match (s.threads t).advance s.shouldStop i with
    | .ok (t', calls) => some (s.put t t' calls, calls)
    | .error _ => some ({ s with aborted := true }, [])

/-- One step, with the calls it makes; none where it cannot be taken. -/
def outcome (s : Server n) : ServerAct n → Option (Server n × List Call)
  | .signal => if s.aborted then none else some ({ s with shouldStop := true }, [])
  | .wait t batch =>
    if s.aborted = false ∧ s.Returns t batch then some (s.goto t (.events batch), []) else none
  | .run t i => if s.aborted then none else s.runThread t i

/-- The state after one step. -/
def next (s : Server n) (a : ServerAct n) : Option (Server n) := (s.outcome a).map (·.1)

end Server

/-! ## What one step can do -/

section Inversion

variable {n : ℕ}

/-- A report leads to the next one, to the statistics or to the accept loop. -/
lemma Pc.after_cases (e : Epoll) (r : Report) (a : Answers) (rest : List Report) :
    (after e r a rest : Pc n) = .events rest ∨
      (e.dispatch r = .timer ∧ a.expired ∧ e.showTimerStats) ∧
        (after e r a rest : Pc n) = .counting 0 rest ∨
      e.isListen ∧ (after e r a rest : Pc n) = .accepting rest := by
  unfold after
  cases hd : e.dispatch r with
  | timer =>
    by_cases hprints : (a.expired && e.showTimerStats) = true
    · exact Or.inr (Or.inl ⟨by simpa using hprints, if_pos hprints⟩)
    · exact Or.inl (if_neg hprints)
  | socketData =>
    by_cases hlisten : e.isListen = true
    · exact Or.inr (Or.inr ⟨hlisten, if_pos hlisten⟩)
    · exact Or.inl (if_neg hlisten)
  | socketClosed | removeClient | wakeup | stdin | clientData | ignored => exact Or.inl rfl

/-- A part of `fullstop` leads to another one, and the last one to its end. -/
lemma Thread.pc_stop (t : Thread n) (stage : Stage) :
    (∃ stage', (t.stop stage).1.pc = .stopping stage') ∨ (t.stop stage).1.pc = .deleted := by
  cases stage with
  | clients fds => cases fds <;> exact Or.inl ⟨_, rfl⟩
  | queue =>
    unfold stop
    cases t.epoll.pendingNewSocks <;> exact Or.inl ⟨_, rfl⟩
  | socket | epfd | timer | wakeup => exact Or.inl ⟨_, rfl⟩
  | flags => exact Or.inr rfl

/-- The moves of a thread that leave its object as it is. -/
inductive Thread.Goes (t : Thread n) (shouldStop : Bool) : Pc n → Prop
  | ends (hpc : t.pc = .loopHead)
      (hend : t.epoll.stdinClosed ∨ t.epoll.socketClosed ∨ shouldStop) : Goes t shouldStop .returned
  | loops (hpc : t.pc = .loopHead) : Goes t shouldStop .waiting
  | again (hpc : t.pc = .events []) : Goes t shouldStop .loopHead
  | locks {r : Report} {rest : List Report} (hpc : t.pc = .events (r :: rest))
      (hwakeup : t.epoll.dispatch r = .wakeup) : Goes t shouldStop (.draining rest)
  | unlocks {rest : List Report} (hpc : t.pc = .draining rest)
      (hqueue : t.epoll.pendingNewSocks = []) : Goes t shouldStop (.events rest)
  | woken {w : Fin n} {rest : List Report} (hpc : t.pc = .waking w rest) :
      Goes t shouldStop (.accepting rest)
  | counts {k : ℕ} {rest : List Report} (hpc : t.pc = .counting k rest) :
      Goes t shouldStop (if k < n then .counting (k + 1) rest else .printing 0 rest)
  | prints {k : ℕ} {rest : List Report} (hpc : t.pc = .printing k rest) :
      Goes t shouldStop (if k < n then .printing (k + 1) rest else .events rest)
  | stays : Goes t shouldStop t.pc

/-- The ways in which a thread can go on by itself. -/
inductive Thread.Advances (t : Thread n) (shouldStop : Bool) (i : Input) :
    Thread n → List Call → Prop
  | goes {pc : Pc n} (h : t.Goes shouldStop pc) : Advances t shouldStop i { t with pc := pc } []
  | handles {r : Report} {rest : List Report} {e : Epoll} {calls : List Call}
      (hpc : t.pc = .events (r :: rest)) (hwakeup : t.epoll.dispatch r ≠ .wakeup)
      (h : t.epoll.Handled r i.toAnswers e calls) :
      Advances t shouldStop i ⟨e, .after t.epoll r i.toAnswers rest⟩ calls
  | drains {rest : List Report} {fd : Fd} {st : Stats} {queue : List (Fd × Stats)}
      (hpc : t.pc = .draining rest) (hqueue : t.epoll.pendingNewSocks = (fd, st) :: queue) :
      Advances t shouldStop i { t with epoll := (t.epoll.drainOne fd st queue).1 }
        (t.epoll.drainOne fd st queue).2
  | adopts {fd : Fd} {st : Stats} {rest : List Report} (hpc : t.pc = .adopting fd st rest) :
      Advances t shouldStop i ⟨(t.epoll.adopt fd st i.added).1, .accepting rest⟩
        (t.epoll.adopt fd st i.added).2
  | stops {stage : Stage} (hpc : t.pc = .stopping stage) :
      Advances t shouldStop i (t.stop stage).1 (t.stop stage).2

lemma Thread.advances_of_ok {t t' : Thread n} {shouldStop : Bool} {i : Input} {calls : List Call}
    (h : t.advance shouldStop i = .ok (t', calls)) : t.Advances shouldStop i t' calls := by
  unfold Thread.advance at h
  split at h <;> rename_i hpc
  · by_cases hend : (t.epoll.stdinClosed || t.epoll.socketClosed || shouldStop) = true
    · rw [if_pos hend] at h
      cases h
      exact .goes (.ends hpc (by simpa [or_assoc] using hend))
    · rw [if_neg hend] at h
      cases h
      exact .goes (.loops hpc)
  · cases h
    exact .goes (.again hpc)
  · rename_i r rest
    unfold Thread.handle at h
    by_cases hwakeup : t.epoll.dispatch r = .wakeup
    · rw [if_pos hwakeup] at h
      cases h
      exact .goes (.locks hpc hwakeup)
    · rw [if_neg hwakeup] at h
      cases hok : t.epoll.handleReport r i.toAnswers with
      | error err => simp [hok, Except.map] at h
      | ok result =>
        rw [hok] at h
        cases h
        exact .handles hpc hwakeup (Epoll.handled_of_ok hok)
  · split at h <;> rename_i hqueue
    · cases h
      exact .goes (.unlocks hpc hqueue)
    · cases h
      exact .drains hpc hqueue
  · cases h
    exact .adopts hpc
  · cases h
    exact .goes (.woken hpc)
  · cases h
    exact .goes (.counts hpc)
  · cases h
    exact .goes (.prints hpc)
  · rename_i stage
    have hstop : t.stop stage = (t', calls) := Except.ok.inj h
    have hstops : t.Advances shouldStop i (t.stop stage).1 (t.stop stage).2 := .stops hpc
    rw [hstop] at hstops
    exact hstops
  · cases h
    exact .goes .stays

/-- The ways in which the process can go on. -/
inductive Server.Steps (s : Server n) : ServerAct n → Server n → List Call → Prop
  | signal : Steps s .signal { s with shouldStop := true } []
  | wait {t : Agent n} {batch : List Report} (hreturns : s.Returns t batch) :
      Steps s (.wait t batch) (s.goto t (.events batch)) []
  | accept {t : Agent n} {i : Input} {fd : Fd} {ip : String} {now : ℕ} {rest : List Report}
      (hpc : (s.threads t).pc = .accepting rest) (haccept : i.accept = .accepted fd ip now)
      (hfree : fd ∉ s.opened) :
      Steps s (.run t i)
        { s.goto t (place fd (Stats.accepted ip now) rest) with
          opened := insert fd s.opened
          accepted := s.accepted + 1 } []
  | acceptedAll {t : Agent n} {i : Input} {rest : List Report}
      (hpc : (s.threads t).pc = .accepting rest) : Steps s (.run t i) (s.goto t (.events rest)) []
  | abort {t : Agent n} {i : Input} : Steps s (.run t i) { s with aborted := true } []
  | compare {t : Agent n} {i : Input} {fd : Fd} {st : Stats} {best : Fin n} {k : ℕ}
      {rest : List Report} (hpc : (s.threads t).pc = .choosing fd st best k rest) (hk : k < n) :
      Steps s (.run t i)
        (s.goto t (.choosing fd st
          (if s.countClients ⟨k, hk⟩ < s.countClients best then ⟨k, hk⟩ else best) (k + 1) rest))
        []
  | choose {t : Agent n} {i : Input} {fd : Fd} {st : Stats} {best : Fin n} {k : ℕ}
      {rest : List Report} (hpc : (s.threads t).pc = .choosing fd st best k rest)
      (hk : ¬ k < n) : Steps s (.run t i) (s.goto t (.pushing fd st best rest)) []
  | push {t : Agent n} {i : Input} {fd : Fd} {st : Stats} {w : Fin n} {rest : List Report}
      (hpc : (s.threads t).pc = .pushing fd st w rest)
      (hlocks : (s.threads (some w)).pc.locks = false) :
      Steps s (.run t i) ((s.goto t (.waking w rest)).push w fd st) []
  | destroy {t : Agent n} {i : Input} (hpc : (s.threads t).pc = .returned)
      (hjoin : t = none → ∀ w, (s.threads (some w)).pc = .deleted) :
      Steps s (.run t i) { s.goto t (.stopping .socket) with shouldStop := true } []
  | advance {t : Agent n} {i : Input} {t' : Thread n} {calls : List Call}
      (h : (s.threads t).Advances s.shouldStop i t' calls) :
      Steps s (.run t i) (s.put t t' calls) calls

namespace Server

variable {s s' : Server n} {a : ServerAct n} {calls : List Call}

lemma steps_runThread {t : Agent n} {i : Input} (h : s.runThread t i = some (s', calls)) :
    s.Steps (.run t i) s' calls := by
  unfold runThread at h
  split at h <;> (try rename_i hpc)
  · cases h
  · cases h
  · split at h <;> rename_i haccept
    · split_ifs at h with hfree
      cases h
      exact .accept hpc haccept hfree.2
    · cases h
      exact .acceptedAll hpc
    · cases h
      exact .abort
  · rename_i fd st best k rest
    by_cases hk : k < n
    · rw [dif_pos hk] at h
      cases h
      exact .compare hpc hk
    · rw [dif_neg hk] at h
      cases h
      exact .choose hpc hk
  · split_ifs at h with hlocks
    cases h
    exact .push hpc (by simpa using hlocks)
  · split_ifs at h with hjoin
    cases h
    exact .destroy hpc hjoin
  · split at h
    · rename_i t' calls' hok
      cases h
      exact .advance (Thread.advances_of_ok hok)
    · cases h
      exact .abort

/-- A step of the process is one of those listed in `Steps`. -/
lemma steps_of_outcome (h : s.outcome a = some (s', calls)) : s.Steps a s' calls := by
  unfold outcome at h
  cases a with
  | signal =>
    dsimp only at h
    split_ifs at h
    cases h
    exact .signal
  | wait t batch =>
    dsimp only at h
    split_ifs at h with hreturns
    cases h
    exact .wait hreturns.2
  | run t i =>
    dsimp only at h
    split_ifs at h
    exact steps_runThread h

lemma next_eq_some : s.next a = some s' ↔ ∃ calls, s.outcome a = some (s', calls) :=
  map_fst_eq_some

lemma steps_of_next (h : s.next a = some s') : ∃ calls, s.Steps a s' calls := by
  obtain ⟨calls, hout⟩ := next_eq_some.mp h
  exact ⟨calls, steps_of_outcome hout⟩

end Server

end Inversion

end ClientServer.Mync
