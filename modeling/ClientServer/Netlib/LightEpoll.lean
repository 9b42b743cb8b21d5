import ClientServer.Library.Descriptors
import ClientServer.Library.Runs
import ClientServer.Mync.Epoll

/-!
# `netlib/epoll.cpp`: the single-thread event loops

The classes derived from `IEpoll` have in common the stop flag, the socket, the thread that
`start_handle` starts to run `exec`, and most of `start_handle` itself; `LightEpoll` is this
common part, together with the threads started so far and the descriptors as the kernel has
them.  A thread goes through `exec` one step at a time, so that the caller of the library can
come in between: it tests `need_stop_`, waits for reports, and handles the reports of the batch
one after the other.

`ClientLightEpoll` and `ServerLightEpoll` say what their handlers do with a report.  A thrown
exception in a thread of the library is caught by nobody and ends the process.

Left out: the receive buffer, the queue of packets to send, `epfd_`, and what is printed.
-/

namespace ClientServer.Netlib

open Std (ExtTreeMap)
open Mync (Fd Events Report ReadAnswer)

/-! ## `IEpoll` -/

/-- Where a thread is in `IEpoll::exec`. -/
inductive ExecPc
  | loopHead
  /-- In `epoll_wait`. -/
  | waiting
  /-- About to handle `r`; `rest` are the reports of the batch after it. -/
  | events (r : Report) (rest : List Report)
  | returned
  deriving DecidableEq

/-- The point of `exec` where `rest` are the reports of the batch still to be handled. -/
def ExecPc.after : List Report → ExecPc
  | [] => .loopHead
  | r :: rest => .events r rest

lemma ExecPc.after_ne_returned (rest : List Report) : ExecPc.after rest ≠ .returned := by
  cases rest <;> simp [ExecPc.after]

/-- `MAX_EVENTS` of `exec`. -/
abbrev maxEvents : ℕ := 4

/-- What the classes derived from `IEpoll` share. -/
structure LightEpoll where
  needStop : Bool
  socket : Fd
  /-- The number of the thread that `handleth_` points to. -/
  handleth : Option ℕ
  /-- The threads started so far, in the order of their start. -/
  threads : List ExecPc
  fds : FdTable

namespace LightEpoll

/-- A new object, before any socket is opened. -/
def new : LightEpoll where
  needStop := false
  socket := -1
  handleth := none
  threads := []
  fds := .empty

/-- How many of the threads have not returned from `exec`. -/
def running (e : LightEpoll) : ℕ := e.threads.countP (· ≠ .returned)

/-- Thread `i` is at `pc`. -/
def goto (e : LightEpoll) (i : ℕ) (pc : ExecPc) : LightEpoll :=
  { e with threads := e.threads.set i pc }

/-- The test `while (!need_stop_)`. -/
def testStop (e : LightEpoll) (i : ℕ) : Option LightEpoll :=
  if e.threads[i]? = some .loopHead then
    some (e.goto i (if e.needStop then .returned else .waiting))
  else none

/-- A batch that `epoll_wait` may return; it is empty after the timeout and after a signal. -/
def Batch (e : LightEpoll) (reports : List Report) : Prop :=
  reports.length ≤ maxEvents ∧ (reports.map (·.fd)).Nodup ∧ ∀ r ∈ reports, r.fd ∈ e.fds.watched

instance (e : LightEpoll) (reports : List Report) : Decidable (e.Batch reports) :=
  inferInstanceAs (Decidable (_ ∧ _))

/-- `epoll_wait` returns. -/
def epollWait (e : LightEpoll) (i : ℕ) (reports : List Report) : Option LightEpoll :=
  if e.threads[i]? = some .waiting ∧ e.Batch reports then some (e.goto i (.after reports))
  else none

/-- The report that thread `i` is about to handle, and the rest of its batch. -/
def report? (e : LightEpoll) (i : ℕ) : Option (Report × List Report) :=
  match e.threads[i]? with
  | some (.events r rest) => some (r, rest)
  | _ => none

/-- The `start_handle` functions.  They differ in the text they throw and in whether they
register `sock`; `added` is the result of `add_fd`. -/
def startHandle (e : LightEpoll) (thrown : String) (sock : Fd) (register added : Bool) :
    Except String LightEpoll :=
  if 0 < e.socket then .error thrown
  else if register ∧ ¬ added then .ok e
  else .ok { e with
    fds := if register then e.fds.watch sock else e.fds
    socket := sock
    handleth := some e.threads.length
    threads := e.threads ++ [.loopHead] }

/-- The first statement of the `stop` functions. -/
def setNeedStop (e : LightEpoll) : LightEpoll := { e with needStop := true }

/-- `handleth_->join()` returns. -/
def Joined (e : LightEpoll) : Prop := ∀ i ∈ e.handleth, e.threads[i]? = some .returned

instance (e : LightEpoll) : Decidable e.Joined :=
  match h : e.handleth with
  | none => isTrue (by simp [Joined, h])
  | some i => decidable_of_iff (e.threads[i]? = some .returned) (by simp [Joined, h])

variable {e e' : LightEpoll} {i : ℕ}

lemma of_testStop (h : e.testStop i = some e') :
    e.threads[i]? = some .loopHead ∧
      e' = e.goto i (if e.needStop then .returned else .waiting) := by
  unfold testStop at h
  by_cases hi : e.threads[i]? = some .loopHead
  · rw [if_pos hi] at h
    exact ⟨hi, (Option.some.inj h).symm⟩
  · rw [if_neg hi] at h
    cases h

lemma of_epollWait {reports : List Report} (h : e.epollWait i reports = some e') :
    e.threads[i]? = some .waiting ∧ e.Batch reports ∧ e' = e.goto i (.after reports) := by
  unfold epollWait at h
  split_ifs at h with hi
  exact ⟨hi.1, hi.2, (Option.some.inj h).symm⟩

lemma report?_eq_some {r : Report} {rest : List Report} :
    e.report? i = some (r, rest) ↔ e.threads[i]? = some (.events r rest) := by
  unfold LightEpoll.report?
  split
  · rename_i hi
    rw [hi]
    simp
  · rename_i hi
    simpa using fun h => hi r rest h

lemma running_singleton {pc : ExecPc} (h : e.threads = [pc]) :
    e.running = if pc = .returned then 0 else 1 := by
  unfold LightEpoll.running
  rw [h]
  by_cases hpc : pc = .returned
  · simp [hpc]
  · simp [hpc]

/-- With no thread running there is no thread to take a step. -/
lemma eq_returned_of_running_eq_zero {pc : ExecPc}
    (h : e.running = 0) (hi : e.threads[i]? = some pc) : pc = .returned := by
  by_contra hpc
  have hmem := List.mem_of_getElem? hi
  exact absurd (List.countP_eq_zero.1 h pc hmem) (by simp [hpc])

/-- What `start_handle` leaves where it starts a thread. -/
def started (e : LightEpoll) (sock : Fd) (register : Bool) : LightEpoll :=
  { e with
    fds := if register then e.fds.watch sock else e.fds
    socket := sock
    handleth := some e.threads.length
    threads := e.threads ++ [.loopHead] }

lemma startHandle_of_busy {thrown : String} {sock : Fd} {register added : Bool}
    (hbusy : 0 < e.socket) : e.startHandle thrown sock register added = .error thrown := by
  unfold startHandle
  rw [if_pos hbusy]

/-- A failure of `add_fd` is silent. -/
lemma startHandle_of_not_added {thrown : String} {sock : Fd} {register added : Bool}
    (hfree : e.socket ≤ 0) (hregister : register = true) (hadded : added = false) :
    e.startHandle thrown sock register added = .ok e := by
  unfold startHandle
  rw [if_neg (not_lt.2 hfree), if_pos ⟨hregister, by simp [hadded]⟩]

lemma startHandle_of_started {thrown : String} {sock : Fd} {register added : Bool}
    (hfree : e.socket ≤ 0) (hadded : register = true → added = true) :
    e.startHandle thrown sock register added = .ok (e.started sock register) := by
  unfold startHandle
  rw [if_neg (not_lt.2 hfree), if_neg fun hbad => hbad.2 (hadded hbad.1)]
  rfl

/-- The thread started last runs. -/
lemma getElem?_started (sock : Fd) (register : Bool) :
    (e.started sock register).threads[e.threads.length]? = some .loopHead := by
  simp [started]

lemma running_started (sock : Fd) (register : Bool) :
    (e.started sock register).running = e.running + 1 := by
  unfold running started
  rw [List.countP_append]
  rfl

end LightEpoll

/-! ## `ClientLightEpoll` -/

/-- The events that the loops pass on to their `IClientEventHandler`. -/
inductive EventType
  | disconnected
  | reconnected
  | waiting
  | clientDisconnect
  deriving DecidableEq, Repr

namespace ClientLightEpoll

/-- `need_reconnect_`, which nothing sets. -/
def needReconnect : Bool := false

/-- `ClientLightEpoll::start_handle`. -/
def startHandle (e : LightEpoll) (sock : Fd) (added : Bool) : Except String LightEpoll :=
  e.startHandle "cli wrong use start_handle " sock true added

/-- The rest of `ClientLightEpoll::stop` after the join. -/
def finishStop (e : LightEpoll) : LightEpoll :=
  { e with handleth := none, fds := e.fds.close e.socket, socket := -1 }

/-- `close(socket_); socket_ = -1;` -/
def dropSocket (e : LightEpoll) : LightEpoll :=
  { e with fds := e.fds.close e.socket, socket := -1 }

/-- `ClientLightEpoll::handle_socket_data`. -/
def handleSocketData (e : LightEpoll) (a : ReadAnswer) : Except String LightEpoll :=
  match a with
  | .data _ => .ok e
  | .eof => .ok (dropSocket e)
  | .again | .error => .error "recv from socket"

/-- `ClientLightEpoll::on_epoll_event`, with the event it passes on. -/
def onEpollEvent (e : LightEpoll) (r : Report) (a : ReadAnswer) :
    Except String (LightEpoll × Option EventType) :=
  if e.needStop then .ok (e, none)
  else if r.events.closing then
    .ok (dropSocket e, some (if needReconnect then .reconnected else .disconnected))
  else (handleSocketData e a).map (·, none)

end ClientLightEpoll

/-! ## `ServerLightEpoll` -/

/-- The counters of `netlib/stats.h` for one connection. -/
structure Stats where
  ip : String
  totalBytes : UInt64
  deriving DecidableEq

/-- `Stats::addBytes`. -/
def Stats.addBytes (st : Stats) (bytes : ℕ) : Stats :=
  { st with totalBytes := st.totalBytes + UInt64.ofNat bytes }

/-- What `accept4` answers; the counter of a new `Stats` has no initial value. -/
inductive AcceptAnswer
  | accepted (fd : Fd) (ip : String) (totalBytes : UInt64)
  /-- `-1` with `EAGAIN` or `EWOULDBLOCK`. -/
  | again
  /-- `-1` with any other `errno`, described by `strerror`. -/
  | error (strerror : String)
  deriving DecidableEq

/-- The call returned a connection. -/
def AcceptAnswer.isAccepted : AcceptAnswer → Bool
  | .accepted .. => true
  | _ => false

/-- The fields of class `ServerLightEpoll`. -/
structure ServerLightEpoll extends LightEpoll where
  clients : ExtTreeMap Fd Stats

namespace ServerLightEpoll

/-- A new object. -/
def new : ServerLightEpoll := { LightEpoll.new with clients := ∅ }

/-- `ServerLightEpoll::countClients`. -/
def countClients (e : ServerLightEpoll) : ℕ := e.clients.size

/-- `ServerLightEpoll::start_handle`. -/
def startHandle (e : ServerLightEpoll) (sock : Fd) (added : Bool) :
    Except String ServerLightEpoll :=
  (e.toLightEpoll.startHandle "srv wrong use start_handle " sock (0 < sock) added).map
    fun l => { e with toLightEpoll := l }

/-- `ServerLightEpoll::remove_client`. -/
def removeClient (e : ServerLightEpoll) (fd : Fd) : ServerLightEpoll :=
  { e with fds := (e.fds.unwatch fd).close fd, clients := e.clients.erase fd }

/-- The rest of `ServerLightEpoll::stop` after the join. -/
def finishStop (e : ServerLightEpoll) : ServerLightEpoll :=
  e.clients.keys.foldl removeClient
    { e with
      handleth := none
      fds := if 0 < e.socket then e.fds.close e.socket else e.fds }

/-- `ServerLightEpoll::handle_client_data`; `operator[]` inserts where the key is new. -/
def handleClientData (e : ServerLightEpoll) (fd : Fd) (a : ReadAnswer) : ServerLightEpoll :=
  match a with
  | .data chunk =>
    { e with
      clients := e.clients.alter fd fun st =>
        some ((st.getD ⟨"", 0⟩).addBytes chunk.1.length) }
  | .eof | .again | .error => e.removeClient fd

/-- What one turn of the loop of `handle_accept` does with an accepted connection. -/
def addClient (e : ServerLightEpoll) (fd : Fd) (ip : String) (totalBytes : UInt64) :
    ServerLightEpoll :=
  { e with fds := e.fds.acquire fd, clients := e.clients.insertIfNew fd ⟨ip, totalBytes⟩ }

/-- `ServerLightEpoll::handle_accept` with the answers of `accept4`, one for each turn; none
where the answers end before the loop does. -/
def handleAccept (e : ServerLightEpoll) :
    List AcceptAnswer → Option (Except String ServerLightEpoll)
  | [] => none
  | .accepted fd ip totalBytes :: answers => (e.addClient fd ip totalBytes).handleAccept answers
  | .again :: _ => some (.ok e)
  | .error strerror :: _ => some (.error ("accept4: " ++ strerror))

/-- A report that `on_epoll_event` hands to `handle_accept`. -/
def Accepts (e : ServerLightEpoll) (r : Report) : Prop :=
  ¬ r.events.closing ∧ r.events.epollin ∧ 0 < e.socket ∧ r.fd = e.socket

instance (e : ServerLightEpoll) (r : Report) : Decidable (e.Accepts r) :=
  inferInstanceAs (Decidable (_ ∧ _))

/-- The answers that handling one report may need. -/
structure Answers where
  recv : ReadAnswer
  accepts : List AcceptAnswer

/-- The answers are those of a kernel that gives every connection a new descriptor, and there are
none after the loop ended. -/
def AcceptsFit : FdTable → List AcceptAnswer → Prop
  | _, [] => True
  | t, .accepted fd _ _ :: answers => t.Fresh fd ∧ AcceptsFit (t.acquire fd) answers
  | _, .again :: answers => answers = []
  | _, .error _ :: answers => answers = []

instance decidableAcceptsFit : ∀ (t : FdTable) (answers : List AcceptAnswer),
    Decidable (AcceptsFit t answers)
  | _, [] => isTrue trivial
  | t, .accepted fd _ _ :: answers =>
    have := decidableAcceptsFit (t.acquire fd) answers
    inferInstanceAs (Decidable (_ ∧ _))
  | _, .again :: answers => inferInstanceAs (Decidable (answers = []))
  | _, .error _ :: answers => inferInstanceAs (Decidable (answers = []))

/-- `ServerLightEpoll::on_epoll_event`. -/
def onEpollEvent (e : ServerLightEpoll) (r : Report) (a : Answers) :
    Option (Except String ServerLightEpoll) :=
  if r.events.closing then
    if r.fd = e.socket then some (.ok { e with needStop := true })
    else some (.ok (e.removeClient r.fd))
  else if r.events.epollin then
    if 0 < e.socket ∧ r.fd = e.socket then e.handleAccept a.accepts
    else if r.fd ∈ e.clients then some (.ok (e.handleClientData r.fd a.recv))
    else some (.ok e)
  else some (.ok e)

/-! ## What one report can do to a server's loop -/

variable {e e' : ServerLightEpoll}

/-- The loop of `handle_accept` changes only the table of descriptors and `clients`. -/
lemma of_handleAccept {answers : List AcceptAnswer}
    (h : e.handleAccept answers = some (.ok e')) :
    e'.needStop = e.needStop ∧ e'.socket = e.socket ∧ e'.handleth = e.handleth ∧
      e'.threads = e.threads ∧ e'.fds.watched = e.fds.watched ∧
      e'.fds.listening = e.fds.listening := by
  induction answers generalizing e with
  | nil => cases h
  | cons answer answers ih =>
    cases answer with
    | accepted fd ip totalBytes => exact ih (e := e.addClient fd ip totalBytes) h
    | again =>
      cases h
      exact ⟨rfl, rfl, rfl, rfl, rfl, rfl⟩
    | error strerror => cases h

/-- The loop keeps the clients there are. -/
lemma mem_clients_of_handleAccept {answers : List AcceptAnswer} {fd : Fd}
    (h : e.handleAccept answers = some (.ok e')) (hfd : fd ∈ e.clients) : fd ∈ e'.clients := by
  induction answers generalizing e with
  | nil => cases h
  | cons answer answers ih =>
    cases answer with
    | accepted fd' ip totalBytes =>
      exact ih (e := e.addClient fd' ip totalBytes) h
        (ExtTreeMap.mem_insertIfNew.2 (Or.inr hfd))
    | again =>
      cases h
      exact hfd
    | error strerror => cases h

/-- The ways in which handling a report can change the object. -/
inductive Handled (e : ServerLightEpoll) (r : Report) (a : Answers) : ServerLightEpoll → Prop
  | ignored : Handled e r a e
  /-- A hang-up of the listening socket. -/
  | stopped : Handled e r a { e with needStop := true }
  /-- A hang-up of a connection, or the end of its stream. -/
  | removed (hfd : ¬ (0 < e.socket ∧ r.fd = e.socket)) : Handled e r a (e.removeClient r.fd)
  | accepted {e' : ServerLightEpoll} (haccepts : e.Accepts r)
      (hloop : e.handleAccept a.accepts = some (.ok e')) : Handled e r a e'
  | counted {clients : ExtTreeMap Fd Stats} (hmem : r.fd ∈ e.clients)
      (hkeys : ∀ fd, fd ∈ clients ↔ fd ∈ e.clients) : Handled e r a { e with clients := clients }

/-- Handling a report does one of the things listed in `Handled`. -/
lemma handled_of_ok {r : Report} {a : Answers} (h : e.onEpollEvent r a = some (.ok e')) :
    Handled e r a e' := by
  unfold onEpollEvent at h
  split_ifs at h with hclosing hsocket hin haccept hmem
  · cases h
    exact .stopped
  · cases h
    exact .removed fun h => hsocket h.2
  · exact .accepted ⟨hclosing, hin, haccept⟩ h
  · cases h
    unfold handleClientData
    cases a.recv with
    | data chunk =>
      refine .counted hmem fun fd => ?_
      rw [ExtTreeMap.mem_alter]
      by_cases hfd : compare r.fd fd = .eq
      · rw [if_pos hfd]
        obtain rfl := Std.LawfulEqCmp.eq_of_compare hfd
        simp [hmem]
      · rw [if_neg hfd]
    | eof => exact .removed haccept
    | again => exact .removed haccept
    | error => exact .removed haccept
  · cases h
    exact .ignored
  · cases h
    exact .ignored

/-- No report changes the socket, the threads, or takes the stop flag down. -/
lemma Handled.frame {r : Report} {a : Answers} (h : Handled e r a e') :
    e'.socket = e.socket ∧ e'.handleth = e.handleth ∧ e'.threads = e.threads ∧
      (e.needStop = true → e'.needStop = true) ∧ e'.fds.listening ⊆ e.fds.listening := by
  cases h with
  | ignored => exact ⟨rfl, rfl, rfl, id, Finset.Subset.refl _⟩
  | stopped => exact ⟨rfl, rfl, rfl, fun _ => rfl, Finset.Subset.refl _⟩
  | removed hfd => exact ⟨rfl, rfl, rfl, id, Finset.erase_subset _ _⟩
  | accepted haccepts hloop =>
    obtain ⟨hneed, hsocket, hhandle, hthreads, -, hlistening⟩ := of_handleAccept hloop
    exact ⟨hsocket, hhandle, hthreads, fun h => hneed.trans h, hlistening.subset⟩
  | counted hmem hkeys => exact ⟨rfl, rfl, rfl, id, Finset.Subset.refl _⟩

lemma foldl_removeClient (fds : List Fd) (e : ServerLightEpoll) :
    (fds.foldl removeClient e).needStop = e.needStop ∧
      (fds.foldl removeClient e).fds.listening ⊆ e.fds.listening := by
  induction fds generalizing e with
  | nil => exact ⟨rfl, Finset.Subset.refl _⟩
  | cons fd fds ih =>
    obtain ⟨hneed, hlistening⟩ := ih (e.removeClient fd)
    exact ⟨hneed, hlistening.trans (Finset.erase_subset _ _)⟩

/-- `stop()` leaves the stop flag as it is, and no new socket listens. -/
lemma finishStop_frame (e : ServerLightEpoll) :
    e.finishStop.needStop = e.needStop ∧ e.finishStop.fds.listening ⊆ e.fds.listening := by
  unfold finishStop
  obtain ⟨hneed, hlistening⟩ := foldl_removeClient e.clients.keys
    { e with handleth := none, fds := if 0 < e.socket then e.fds.close e.socket else e.fds }
  refine ⟨hneed, hlistening.trans ?_⟩
  show (if 0 < e.socket then e.fds.close e.socket else e.fds).listening ⊆ e.fds.listening
  split_ifs
  · exact Finset.erase_subset _ _
  · exact Finset.Subset.refl _

end ServerLightEpoll

end ClientServer.Netlib
