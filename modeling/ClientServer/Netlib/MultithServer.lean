import ClientServer.Library.LeastLoad
import ClientServer.Netlib.LightEpoll

/-!
# `netlib/epoll.cpp`: the multi-thread server

`ServerMultithEpoll`, whose thread accepts connections, and the `ServerSubEpoll` objects it
starts to serve them, over any order of their steps after `start_handle`.  The main thread goes
through `handle_accept` in two steps a turn, `accept4` and the choice of a worker; a worker
takes one report in one step.

Left out: `stop`, the mutex of the pending queue, and turns of `exec` without a report, which
change nothing.
-/

namespace ClientServer.Netlib

open Std (ExtTreeMap)
open Mync (Fd Events Report ReadAnswer)

/-! ## `ServerSubEpoll` -/

/-- The fields of class `ServerSubEpoll`. -/
structure ServerSubEpoll where
  needStop : Bool
  socket : Fd
  /-- There is a thread in `handleth_`. -/
  running : Bool
  /-- The interest set of its epoll instance. -/
  watched : Finset Fd
  clients : ExtTreeMap Fd Stats
  pendingNewSocks : List (Fd × Stats)

namespace ServerSubEpoll

/-- A new object. -/
def new : ServerSubEpoll where
  needStop := false
  socket := -1
  running := false
  watched := ∅
  clients := ∅
  pendingNewSocks := []

/-- `ServerSubEpoll::start_handle` as it is called, with `-1`: there is nothing to register. -/
def startHandle (w : ServerSubEpoll) : ServerSubEpoll := { w with socket := -1, running := true }

/-- `ServerSubEpoll::countClients`. -/
def countClients (w : ServerSubEpoll) : ℕ := w.clients.size

/-- `ServerSubEpoll::push_external_socket`: nothing wakes the worker up. -/
def pushExternalSocket (w : ServerSubEpoll) (fd : Fd) (st : Stats) : ServerSubEpoll :=
  { w with pendingNewSocks := w.pendingNewSocks ++ [(fd, st)] }

/-- `ServerSubEpoll::remove_client`, up to the `close`. -/
def removeClient (w : ServerSubEpoll) (fd : Fd) : ServerSubEpoll :=
  { w with watched := w.watched.erase fd, clients := w.clients.erase fd }

/-- `ServerSubEpoll::on_epoll_event` with `handle_client_data`, and whether it closes the
descriptor of the report. -/
def onEpollEvent (w : ServerSubEpoll) (r : Report) (a : ReadAnswer) : ServerSubEpoll × Bool :=
  if r.events.closing then
    if r.fd = w.socket then ({ w with needStop := true }, false)
    else (w.removeClient r.fd, true)
  else if r.events.epollin then
    match a with
    | .data chunk =>
      ({ w with
        clients := w.clients.alter r.fd fun st =>
          some ((st.getD ⟨"", 0⟩).addBytes chunk.1.length) }, false)
    | .eof | .again | .error => (w.removeClient r.fd, true)
  else (w, false)

/-- How often the worker holds `fd`. -/
def holds (w : ServerSubEpoll) (fd : Fd) : ℕ :=
  (if fd ∈ w.clients then 1 else 0) + w.pendingNewSocks.countP (·.1 = fd)

/-- How many descriptors the worker holds. -/
def held (w : ServerSubEpoll) : ℕ := w.clients.size + w.pendingNewSocks.length

end ServerSubEpoll

/-! ## `ServerMultithEpoll` -/

/-- Where the main thread is. -/
inductive MultithPc
  /-- In the loop of `exec`. -/
  | exec
  /-- About to call `accept4`. -/
  | accepting
  /-- About to choose a worker for the connection. -/
  | choosing (fd : Fd) (st : Stats)
  deriving DecidableEq

/-- The fields of class `ServerMultithEpoll`, the workers it started, and the descriptors. -/
structure ServerMultithEpoll where
  needStop : Bool
  socket : Fd
  /-- There is a thread in `handleth_`. -/
  running : Bool
  /-- `subepolls_`, by the numbers of the workers. -/
  subepolls : List ℕ
  /-- The workers created, in order. -/
  workers : List ServerSubEpoll
  fds : FdTable
  pc : MultithPc
  /-- The descriptors accepted, given to a worker, and not removed since. -/
  accepted : List Fd
  /-- Some connection was removed. -/
  removed : Bool

/-- What can happen next. -/
inductive MultithAct
  /-- A report of the main thread's epoll instance. -/
  | report (r : Report)
  | accept (a : AcceptAnswer)
  /-- `std::min_element` and the push. -/
  | choose
  /-- A report of the epoll instance of worker `w`. -/
  | work (w : ℕ) (r : Report) (a : ReadAnswer)

namespace ServerMultithEpoll

/-- A new object, in a process with the given descriptors open. -/
def new (fds : FdTable) : ServerMultithEpoll where
  needStop := false
  socket := -1
  running := false
  subepolls := []
  workers := []
  fds := fds
  pc := .exec
  accepted := []
  removed := false

/-- `ServerMultithEpoll::start_handle`; `added` is the result of `add_fd`. -/
def startHandle (s : ServerMultithEpoll) (sock : Fd) (countWorkers : ℕ) (added : Bool) :
    Except String ServerMultithEpoll :=
  if 0 < s.socket then .error "srv wrong use start_handle "
  else if 0 < sock ∧ added = false then .ok s
  else .ok { s with
    fds := if 0 < sock then s.fds.watch sock else s.fds
    socket := sock
    running := true
    -- the loop only keeps the new worker in a local variable
    workers := s.workers ++ List.replicate countWorkers ServerSubEpoll.new.startHandle }

/-- `countClients()` of the worker that an entry of `subepolls_` points to. -/
def countOf (s : ServerMultithEpoll) (w : ℕ) : ℕ :=
  ((s.workers[w]?).map ServerSubEpoll.countClients).getD 0

/-- `ServerMultithEpoll::countClients`. -/
def countClients (s : ServerMultithEpoll) : ℕ := (s.subepolls.map s.countOf).sum

/-- `*std::min_element(subepolls_.begin(), subepolls_.end(), ...)`: the first of the entries with
the fewest clients; an empty vector has no entry to dereference. -/
def minSubepoll (s : ServerMultithEpoll) : Option ℕ :=
  match s.subepolls with
  | [] => none
  | w :: ws => some (ws.foldl (fun best w => if s.countOf w < s.countOf best then w else best) w)

/-- `ServerMultithEpoll::on_epoll_event`. -/
def onEpollEvent (s : ServerMultithEpoll) (r : Report) : ServerMultithEpoll :=
  if r.events.closing then
    if r.fd = s.socket then { s with needStop := true } else s
  else if r.events.epollin then { s with pc := .accepting }
  else s

/-- The loop of `handle_accept` after `accept4`; an error is thrown and ends the process. -/
def accept (s : ServerMultithEpoll) : AcceptAnswer → Option ServerMultithEpoll
  | .accepted fd ip totalBytes =>
    if s.fds.Fresh fd then
      some { s with fds := s.fds.acquire fd, pc := .choosing fd ⟨ip, totalBytes⟩ }
    else none
  | .again => some { s with pc := .exec }
  | .error _ => none

/-- Worker `w` becomes `sub`. -/
def setWorker (s : ServerMultithEpoll) (w : ℕ) (sub : ServerSubEpoll) : ServerMultithEpoll :=
  { s with workers := s.workers.set w sub }

/-- One step; none where it cannot be taken, where the process ends, and where the behaviour of
the program is undefined. -/
def next (s : ServerMultithEpoll) : MultithAct → Option ServerMultithEpoll
  | .report r =>
    if s.pc = .exec ∧ s.needStop = false ∧ r.fd ∈ s.fds.watched then some (s.onEpollEvent r)
    else none
  | .accept a => if s.pc = .accepting then s.accept a else none
  | .choose =>
    match s.pc, s.minSubepoll with
    | .choosing fd st, some w =>
      match s.workers[w]? with
      | some sub =>
        some { s.setWorker w (sub.pushExternalSocket fd st) with
          pc := .accepting, accepted := s.accepted ++ [fd] }
      | none => none
    | _, _ => none
  | .work w r a =>
    match s.workers[w]? with
    | some sub =>
      if r.fd ∈ sub.watched then
        let (sub', closed) := sub.onEpollEvent r a
        if closed then
          some { s.setWorker w sub' with
            fds := s.fds.close r.fd, accepted := s.accepted.erase r.fd, removed := true }
        else some (s.setWorker w sub')
      else none
    | none => none

/-! ## What is to hold -/

/-- When a worker is chosen `subepolls_` has all of them.  Otherwise every accepted descriptor is
held once, `countClients()` is their number, and without a disconnect any two workers hold as
many, up to one. -/
def Balanced (countWorkers : ℕ) (s : ServerMultithEpoll) : Prop :=
  match s.pc with
  | .choosing _ _ => ∀ w < countWorkers, w ∈ s.subepolls
  | _ =>
    (∀ fd ∈ s.accepted, (s.workers.map (·.holds fd)).sum = 1) ∧
      s.countClients = s.accepted.length ∧
      (s.removed = false →
        WithinOne fun w : Fin s.workers.length => (s.workers[w].held : ℤ))

/-- No `accept4` returns a connection. -/
def AcceptsNone (_ : ServerMultithEpoll) : MultithAct → Prop
  | .accept a => a.isAccepted = false
  | _ => True

instance (s : ServerMultithEpoll) : DecidablePred s.AcceptsNone
  | .accept a => inferInstanceAs (Decidable (a.isAccepted = false))
  | .report _ | .choose | .work .. => isTrue trivial

/-- What `start_handle` leaves, for a listening socket `sock`. -/
def started (fds : FdTable) (sock : Fd) (countWorkers : ℕ) (added : Bool) : ServerMultithEpoll :=
  match (new fds).startHandle sock countWorkers added with
  | .ok s => s
  | .error _ => new fds

/-- Before the first connection the workers have nothing, and `subepolls_` does not know them. -/
structure Idle (s : ServerMultithEpoll) : Prop where
  pc : s.pc = .exec ∨ s.pc = .accepting
  subepolls : s.subepolls = []
  workers : ∀ sub ∈ s.workers, sub = ServerSubEpoll.new.startHandle
  accepted : s.accepted = []

variable {s s' : ServerMultithEpoll} {countWorkers : ℕ}

lemma idle_started (fds : FdTable) (sock : Fd) (countWorkers : ℕ) (added : Bool) :
    Idle (started fds sock countWorkers added) := by
  have hsocket : ¬ 0 < (new fds).socket := show ¬ (0 : Fd) < -1 by decide
  unfold started startHandle
  rw [if_neg hsocket]
  by_cases hfail : 0 < sock ∧ added = false
  · rw [if_pos hfail]
    exact ⟨Or.inl rfl, rfl, fun sub hsub => absurd hsub List.not_mem_nil, rfl⟩
  · rw [if_neg hfail]
    exact ⟨Or.inl rfl, rfl, fun sub hsub => List.eq_of_mem_replicate hsub, rfl⟩

lemma held_new : ServerSubEpoll.new.startHandle.held = 0 := rfl

/-- Nothing accepted is balanced. -/
lemma Idle.balanced (h : Idle s) : s.Balanced countWorkers := by
  have hrest : (∀ fd ∈ s.accepted, (s.workers.map (·.holds fd)).sum = 1) ∧
      s.countClients = s.accepted.length ∧
      (s.removed = false →
        WithinOne fun w : Fin s.workers.length => (s.workers[w].held : ℤ)) := by
    rw [h.accepted]
    refine ⟨fun fd hfd => absurd hfd List.not_mem_nil, ?_, fun _ => ?_⟩
    · unfold countClients
      rw [h.subepolls]
      rfl
    · have hzero : (fun w : Fin s.workers.length => (s.workers[w].held : ℤ)) = fun _ => 0 := by
        funext w
        have hnew : s.workers[w] = ServerSubEpoll.new.startHandle :=
          h.workers _ (List.getElem_mem w.isLt)
        rw [hnew, held_new]
        rfl
      rw [hzero]
      exact withinOne_const 0
  unfold Balanced
  obtain hpc | hpc := h.pc
  · rw [hpc]
    exact hrest
  · rw [hpc]
    exact hrest

/-- No worker has anything in its interest set. -/
lemma Idle.preserves : Preserves next AcceptsNone Idle := by
  intro s act s' h hnone hstep
  cases act with
  | report r =>
    simp only [next] at hstep
    split_ifs at hstep with hc
    cases hstep
    unfold onEpollEvent
    split_ifs
    · exact ⟨h.pc, h.subepolls, h.workers, h.accepted⟩
    · exact h
    · exact ⟨Or.inr rfl, h.subepolls, h.workers, h.accepted⟩
    · exact h
  | accept a =>
    simp only [next] at hstep
    split_ifs at hstep
    cases a with
    | accepted fd ip totalBytes => cases hnone
    | again =>
      cases hstep
      exact ⟨Or.inl rfl, h.subepolls, h.workers, h.accepted⟩
    | error strerror => cases hstep
  | choose =>
    simp only [next] at hstep
    split at hstep
    · rename_i hpc _
      obtain hother | hother := h.pc
      · rw [hother] at hpc
        cases hpc
      · rw [hother] at hpc
        cases hpc
    · cases hstep
  | work w r a =>
    simp only [next] at hstep
    split at hstep
    · rename_i sub hsub
      obtain rfl := h.workers sub (List.mem_of_getElem? hsub)
      have hunwatched : r.fd ∉ ServerSubEpoll.new.startHandle.watched :=
        Finset.notMem_empty r.fd
      rw [if_neg hunwatched] at hstep
      cases hstep
    · cases hstep

/-- A connection finds `subepolls_` empty. -/
lemma acceptsNone_of_balanced (hcount : 1 ≤ countWorkers) {act : MultithAct} (h : Idle s)
    (hstep : s.next act = some s') (hbalanced : s'.Balanced countWorkers) :
    s.AcceptsNone act := by
  cases act with
  | report r => trivial
  | choose => trivial
  | work w r a => trivial
  | accept a =>
    cases a with
    | again => rfl
    | error strerror => rfl
    | accepted fd ip totalBytes =>
      simp only [next, accept] at hstep
      split_ifs at hstep
      cases hstep
      have hmem := hbalanced 0 hcount
      rw [h.subepolls] at hmem
      cases hmem

/-- **Connections of the multi-thread server.**  After `start_handle` with one worker or more,
the connections are kept and balanced throughout exactly the runs in which no `accept4` returns
one. -/
theorem balanced_throughout_iff (fds : FdTable) (sock : Fd) (countWorkers : ℕ)
    (hcount : 1 ≤ countWorkers) (added : Bool) (acts : List MultithAct) :
    Throughout next (Balanced countWorkers) (started fds sock countWorkers added) acts ↔
      Along next AcceptsNone (started fds sock countWorkers added) acts :=
  Idle.preserves.throughout_iff (fun _ h => h.balanced)
    (fun _ _ _ h hstep hbalanced => acceptsNone_of_balanced hcount h hstep hbalanced)
    (idle_started fds sock countWorkers added)

/-- A listening socket on descriptor `3`. -/
def listener : FdTable := (FdTable.empty.acquire 3).listen 3

/-- Three workers; `accept4` finds nothing, fails, and finds nothing again. -/
theorem balanced_throughout_iff_of_no_client :
    Throughout next (Balanced 3) (started listener 3 3 true)
      [.report ⟨3, ⟨true, false, false, false⟩⟩, .accept .again,
        .report ⟨3, ⟨true, false, false, false⟩⟩, .accept (.error "Too many open files"),
        .report ⟨3, ⟨true, false, false, false⟩⟩, .accept .again] :=
  (balanced_throughout_iff listener 3 3 (by decide) true _).mpr (by decide)

/-- One worker and the first connection, on descriptor `4`: `subepolls_` is empty when a worker
is chosen. -/
theorem not_balanced_after_accept :
    ¬ Throughout next (Balanced 1) (started listener 3 1 true)
      [.report ⟨3, ⟨true, false, false, false⟩⟩, .accept (.accepted 4 "127.0.0.1:40000" 0)] := by
  intro h
  obtain ⟨-, h⟩ := h
  obtain ⟨-, h⟩ := h _ rfl
  have hchoosing := h _ rfl 0 Nat.one_pos
  cases hchoosing

end ServerMultithEpoll

end ClientServer.Netlib
