import ClientServer.Library.Bytes
import Mathlib

/-!
# `mync/epollserver.cpp`: the class `Epoll`

One `Epoll` object runs an event loop over an epoll instance: the main thread of the server has
one that owns the listening socket, each worker thread has one that owns a share of the
accepted connections, and the client program has one that relays between standard input and
its socket.

Each member function is a pure function of the object and of the answers its system calls get,
and returns the new object together with the calls it makes, in order.  The body of the `for`
loop in `exec` is `Epoll.dispatch`, which decides which branch a report takes, followed by the
function of that branch.  What the kernel does with the calls, and how several objects
interleave, is left to the models that use these functions.

Left out: the receive buffer, the texts printed on `std::cout` and `std::cerr`, the time the
server started, and the floating-point rates in `Stats`.
-/

namespace ClientServer.Mync

open Std

/-- A descriptor number; `-1` stands for none. -/
abbrev Fd := ℤ

/-- `STDIN_FILENO`. -/
def stdinFileno : Fd := 0

/-- `BUF_SIZE`. -/
abbrev bufSize : ℕ := 65536

/-- The macro `SERVER_WRITE_STDOUT`. -/
def serverWriteStdout : Bool := false

/-! ## `Stats` -/

/-- The counters the server keeps for one connection; times are in nanoseconds. -/
structure Stats where
  ip : String
  totalBytes : UInt64
  lastUpdateBytes : UInt64
  lastUpdateTime : ℕ
  intervalBytes : UInt64
  deriving DecidableEq

namespace Stats

/-- The constructor, at time `now`. -/
def new (now : ℕ) : Stats := ⟨"", 0, 0, now, 0⟩

/-- `Stats::addBytes`. -/
def addBytes (st : Stats) (bytes : ℕ) : Stats :=
  { st with
    totalBytes := st.totalBytes + UInt64.ofNat bytes
    intervalBytes := st.intervalBytes + UInt64.ofNat bytes }

/-- `Stats::updateBps`, without the rate it computes. -/
def updateBps (st : Stats) (now : ℕ) : Stats :=
  if now ≤ st.lastUpdateTime then st
  else { st with lastUpdateBytes := st.totalBytes, lastUpdateTime := now }

/-- `Stats::checkFourGigabytes`: whether a message is due, and the interval started anew. -/
def checkFourGigabytes (st : Stats) : Bool × Stats :=
  if 4000000000 ≤ st.intervalBytes then (true, { st with intervalBytes := 0 }) else (false, st)

/-- The `Stats` of a connection accepted from `ip` at time `now`. -/
def accepted (ip : String) (now : ℕ) : Stats := { new now with ip := ip }

/-- What one timer tick does to the counters of a connection. -/
def tick (st : Stats) (now : ℕ) : Stats := (st.updateBps now).checkFourGigabytes.2

@[simp] lemma totalBytes_tick (st : Stats) (now : ℕ) :
    (st.tick now).totalBytes = st.totalBytes := by
  unfold tick checkFourGigabytes updateBps
  split_ifs <;> rfl

end Stats

/-! ## System calls -/

/-- The event bits of a report that the code tests. -/
structure Events where
  epollin : Bool
  epollhup : Bool
  epollrdhup : Bool
  epollerr : Bool
  deriving DecidableEq, Repr

/-- `evs & (EPOLLHUP | EPOLLRDHUP | EPOLLERR)`. -/
def Events.closing (evs : Events) : Bool := evs.epollhup || evs.epollrdhup || evs.epollerr

/-- One report of `epoll_wait`. -/
structure Report where
  fd : Fd
  events : Events
  deriving DecidableEq, Repr

/-- What a `read` or `recv` of up to `BUF_SIZE` bytes answers. -/
inductive ReadAnswer
  | data (chunk : Chunk bufSize)
  | eof
  /-- `-1` with `EAGAIN` or `EWOULDBLOCK`. -/
  | again
  /-- `-1` with any other `errno` (`EINTR` is retried by `read_from_stdin`). -/
  | error

/-- The bytes a `read` or `recv` returns. -/
def ReadAnswer.bytes : ReadAnswer → Bytes
  | .data chunk => chunk.1
  | _ => []

/-- The stream is at its end. -/
def ReadAnswer.isEof : ReadAnswer → Bool
  | .eof => true
  | _ => false

/-- What `accept4` answers. -/
inductive AcceptAnswer
  | accepted (fd : Fd) (ip : String) (now : ℕ)
  /-- `-1` with `EAGAIN` or `EWOULDBLOCK`. -/
  | again
  | error

/-- The answers that handling one report may need. -/
structure Answers where
  /-- `read` on standard input, or `recv` on a socket. -/
  read : ReadAnswer
  /-- Whether `send` to `sockfd` takes the whole chunk. -/
  sent : Bool
  /-- Whether `write` to standard output takes the whole chunk. -/
  written : Bool
  /-- Whether the expiration count was read from the timer. -/
  expired : Bool
  /-- The clock. -/
  now : ℕ

/-- A system call with an effect outside the object. -/
inductive Call
  | epollAdd (fd : Fd)
  | epollDel (fd : Fd)
  | close (fd : Fd)
  | send (fd : Fd) (bytes : Bytes)
  /-- The text of `checkFourGigabytes`. -/
  | sendStats (fd : Fd)
  | shutdownWrite (fd : Fd)
  | writeStdout (bytes : Bytes)
  deriving DecidableEq

/-- The descriptors that a sequence of calls closes. -/
def closes (calls : List Call) : List Fd :=
  calls.filterMap fun
    | .close fd => some fd
    | _ => none

@[simp] lemma mem_closes {fd : Fd} {calls : List Call} : fd ∈ closes calls ↔ .close fd ∈ calls := by
  unfold closes
  rw [List.mem_filterMap]
  constructor
  · rintro ⟨c, hc, hfd⟩
    split at hfd
    · rw [Option.some.injEq] at hfd
      exact hfd ▸ hc
    · cases hfd
  · intro h
    exact ⟨.close fd, h, rfl⟩

/-- The `std::runtime_error`s thrown while handling a report. -/
inductive Thrown
  | sendToSocket
  | readStdin
  | writeToStdout
  | recvFromSocket
  | accept4
  deriving DecidableEq, Repr

/-! ## The object -/

/-- The fields of class `Epoll`. -/
structure Epoll where
  epfd : Fd
  sockfd : Fd
  isListen : Bool
  showTimerStats : Bool
  timerfd : Fd
  clients : ExtTreeMap Fd Stats
  stdinClosed : Bool
  socketClosed : Bool
  sizeClients : ℤ
  wakeupFd : Fd
  pendingNewSocks : List (Fd × Stats)

namespace Epoll

/-- The constructor with `setup_epoll`, given the descriptors the kernel hands out; the timer
is for servers and their workers only. -/
def new (sock : Fd) (listen showTimerStats : Bool) (epfd wakeup timer : Fd) : Epoll where
  epfd := epfd
  sockfd := sock
  isListen := listen
  showTimerStats := showTimerStats
  timerfd := if listen ∨ sock = -1 then timer else -1
  clients := ∅
  stdinClosed := false
  socketClosed := false
  sizeClients := 0
  wakeupFd := wakeup
  pendingNewSocks := []

/-- The descriptors registered by `setup_epoll`. -/
def Own (e : Epoll) (fd : Fd) : Prop :=
  fd = stdinFileno ∨ fd = e.sockfd ∨ fd = e.wakeupFd ∨ fd = e.timerfd

instance (e : Epoll) (fd : Fd) : Decidable (e.Own fd) :=
  inferInstanceAs (Decidable (_ ∨ _ ∨ _ ∨ _))

/-- The descriptors that may be registered in the object's epoll set. -/
def Watches (e : Epoll) (fd : Fd) : Prop := 0 ≤ fd ∧ (e.Own fd ∨ fd ∈ e.clients)

instance (e : Epoll) (fd : Fd) : Decidable (e.Watches fd) := inferInstanceAs (Decidable (_ ∧ _))

/-- `Epoll::remove_client`. -/
def removeClient (e : Epoll) (fd : Fd) : Epoll × List Call :=
  ({ e with clients := e.clients.erase fd, sizeClients := e.sizeClients - 1 },
    [.epollDel fd, .close fd])

/-- The critical section of `Epoll::push_external_socket`; the eventfd write follows it. -/
def pushExternalSocket (e : Epoll) (fd : Fd) (st : Stats) : Epoll :=
  { e with
    pendingNewSocks := e.pendingNewSocks ++ [(fd, st)]
    sizeClients := e.sizeClients + 1 }

/-- One turn of the drain loop in the wakeup branch of `exec`: the result of `add_fd` is not
looked at, and `size_clients` was counted by the push. -/
def drainOne (e : Epoll) (fd : Fd) (st : Stats) (rest : List (Fd × Stats)) : Epoll × List Call :=
  ({ e with pendingNewSocks := rest, clients := e.clients.insertIfNew fd st }, [.epollAdd fd])

/-- The rest of an `accept_connections` turn when `balance_socket` leaves the socket here;
`added` is the result of `add_fd`. -/
def adopt (e : Epoll) (fd : Fd) (st : Stats) (added : Bool) : Epoll × List Call :=
  if added then
    ({ e with sizeClients := e.sizeClients + 1, clients := e.clients.insertIfNew fd st },
      [.epollAdd fd])
  else (e, [.epollAdd fd, .close fd])

/-- `Epoll::handle_stdin`. -/
def handleStdin (e : Epoll) (a : Answers) : Except Thrown (Epoll × List Call) :=
  match a.read with
  | .data chunk =>
    if e.isListen then
      -- a failed send to a client is only reported on `std::cerr`
      .ok (e, e.clients.keys.map (.send · chunk.1))
    else if 0 ≤ e.sockfd ∧ a.sent then .ok (e, [.send e.sockfd chunk.1])
    else .error .sendToSocket
  | .eof => .ok ({ e with stdinClosed := true }, [.shutdownWrite e.sockfd])
  | .again | .error => .error .readStdin

/-- `clients[fd].addBytes(n)`: `operator[]` inserts where the key is new. -/
def countBytes (e : Epoll) (fd : Fd) (n now : ℕ) : Epoll :=
  { e with
    clients := e.clients.alter fd (fun st => some ((st.getD (Stats.new now)).addBytes n)) }

/-- `Epoll::handle_client_data`. -/
def handleClientData (e : Epoll) (fd : Fd) (a : Answers) : Except Thrown (Epoll × List Call) :=
  match a.read with
  | .data chunk =>
    if a.written then
      .ok (e.countBytes fd chunk.1.length a.now,
        [.writeStdout (if serverWriteStdout then chunk.1 else [])])
    else .error .writeToStdout
  | .eof | .again | .error => .ok (e.removeClient fd)

/-- `Epoll::handle_socket_data` of an object that does not listen. -/
def handleSocketData (e : Epoll) (a : Answers) : Except Thrown (Epoll × List Call) :=
  match a.read with
  | .data chunk =>
    if a.written then .ok (e, [.writeStdout chunk.1]) else .error .writeToStdout
  | .eof => .ok ({ e with socketClosed := true }, [])
  | .again | .error => .error .recvFromSocket

/-- `Epoll::handle_timer` up to the statistics it prints. -/
def handleTimer (e : Epoll) (a : Answers) : Epoll × List Call :=
  if a.expired then
    ({ e with clients := e.clients.map fun _ st => st.tick a.now },
      (e.clients.toList.filter fun c => (c.2.updateBps a.now).checkFourGigabytes.1).map
        fun c => .sendStats c.1)
  else (e, [])

/-! ## `Epoll::fullstop` -/

/-- `if (fd >= 0) close(fd);` -/
def closeOwn (fd : Fd) : List Call := if 0 ≤ fd then [.close fd] else []

/-- The field after `if (fd >= 0) fd = -1;`. -/
def released (fd : Fd) : Fd := if 0 ≤ fd then -1 else fd

/-- The part of `fullstop` that closes the listening socket. -/
def stopSocket (e : Epoll) : Epoll × List Call :=
  ({ e with sockfd := released e.sockfd }, closeOwn e.sockfd)

/-- The loop of `fullstop` over the copied keys of `clients`. -/
def removeClients : List Fd → Epoll → Epoll × List Call
  | [], e => (e, [])
  | fd :: fds, e =>
    let (e', calls) := e.removeClient fd
    let (e'', calls') := removeClients fds e'
    (e'', calls ++ calls')

/-- `clients.clear()`. -/
def clearClients (e : Epoll) : Epoll := { e with clients := ∅ }

/-- One turn of the loop of `fullstop` over the pending queue. -/
def stopPending (e : Epoll) (fd : Fd) (rest : List (Fd × Stats)) : Epoll × List Call :=
  ({ e with pendingNewSocks := rest }, [.close fd])

/-- The part of `fullstop` that closes the epoll instance. -/
def stopEpfd (e : Epoll) : Epoll × List Call :=
  ({ e with epfd := released e.epfd }, closeOwn e.epfd)

/-- The part of `fullstop` that closes the timer. -/
def stopTimer (e : Epoll) : Epoll × List Call :=
  ({ e with timerfd := released e.timerfd }, closeOwn e.timerfd)

/-- The part of `fullstop` that closes the eventfd. -/
def stopWakeup (e : Epoll) : Epoll × List Call :=
  ({ e with wakeupFd := released e.wakeupFd }, closeOwn e.wakeupFd)

/-- The last statements of `fullstop`. -/
def stopFlags (e : Epoll) : Epoll :=
  { e with stdinClosed := true, socketClosed := true, sizeClients := 0 }

/-- `Epoll::fullstop` run in one go, after the stop flag is set. -/
def fullstop (e : Epoll) : Epoll × List Call :=
  let (e₁, socket) := e.stopSocket
  let (e₂, removed) := removeClients e₁.clients.keys e₁
  let e₃ : Epoll := { e₂.clearClients with pendingNewSocks := [] }
  let queue := e₂.pendingNewSocks.map fun c => Call.close c.1
  let (e₄, epfd) := e₃.stopEpfd
  let (e₅, timer) := e₄.stopTimer
  let (e₆, wakeup) := e₅.stopWakeup
  (e₆.stopFlags, socket ++ removed ++ queue ++ epfd ++ timer ++ wakeup)

lemma mem_removeClients {fd : Fd} (fds : List Fd) (e : Epoll) :
    .epollDel fd ∈ (removeClients fds e).2 ↔ fd ∈ fds := by
  induction fds generalizing e with
  | nil => simp [removeClients]
  | cons fd' fds ih => simp [removeClients, removeClient, ih]

/-- `fullstop` removes exactly the connections in `clients`. -/
lemma epollDel_mem_fullstop {fd : Fd} {e : Epoll} :
    .epollDel fd ∈ e.fullstop.2 ↔ fd ∈ e.clients := by
  have hown (fd' : Fd) : Call.epollDel fd ∉ closeOwn fd' := by
    unfold closeOwn
    split_ifs <;> simp
  simp [fullstop, stopSocket, stopEpfd, stopTimer, stopWakeup, hown, mem_removeClients]

/-! ## One report -/

/-- The branches of the loop body of `exec`. -/
inductive Branch
  | socketClosed
  | removeClient
  | wakeup
  | stdin
  | timer
  | socketData
  | clientData
  | ignored
  deriving DecidableEq, Repr

/-- The branch that a report takes: the hang-up bits are tested before `EPOLLIN`. -/
def dispatch (e : Epoll) (r : Report) : Branch :=
  if r.events.closing then
    if r.fd = e.sockfd then .socketClosed else .removeClient
  else if r.events.epollin then
    if 0 < e.wakeupFd ∧ r.fd = e.wakeupFd then .wakeup
    else if r.fd = stdinFileno then .stdin
    else if r.fd = e.timerfd then .timer
    else if 0 < e.sockfd ∧ r.fd = e.sockfd then .socketData
    else if r.fd ∈ e.clients then .clientData
    else .ignored
  else .ignored

/-- Only the hang-up bits and the data branch concern a descriptor that `setup_epoll` did not
register. -/
lemma dispatch_of_not_own {e : Epoll} {r : Report} (hown : ¬ e.Own r.fd) :
    e.dispatch r =
      if r.events.closing then .removeClient
      else if r.events.epollin ∧ r.fd ∈ e.clients then .clientData else .ignored := by
  unfold Own at hown
  push Not at hown
  obtain ⟨hstdin, hsock, hwakeup, htimer⟩ := hown
  unfold dispatch
  by_cases hin : r.events.epollin = true
  · simp [hsock, hwakeup, hstdin, htimer, hin]
  · simp [hsock, hin]

lemma mem_clients_of_dispatch {e : Epoll} {r : Report} (h : e.dispatch r = .clientData) :
    r.fd ∈ e.clients := by
  unfold dispatch at h
  split_ifs at h
  assumption

/-- The drain loop run in one go, as it does under the mutex. -/
def drain (e : Epoll) : Epoll × List Call :=
  ({ e with
      pendingNewSocks := []
      clients := e.pendingNewSocks.foldl (fun m c => m.insertIfNew c.1 c.2) e.clients },
    e.pendingNewSocks.map fun c => .epollAdd c.1)

/-- One iteration of the `for` loop in `exec`.  The accept loop that a report on a listening
socket starts is not part of it: its turns are steps of their own. -/
def handleReport (e : Epoll) (r : Report) (a : Answers) : Except Thrown (Epoll × List Call) :=
  match e.dispatch r with
  | .socketClosed => .ok ({ e with socketClosed := true }, [])
  | .removeClient => .ok (e.removeClient r.fd)
  | .wakeup => .ok e.drain
  | .stdin => e.handleStdin a
  | .timer => .ok (e.handleTimer a)
  | .socketData => if e.isListen then .ok (e, []) else e.handleSocketData a
  | .clientData => e.handleClientData r.fd a
  | .ignored => .ok (e, [])

/-! ## What one report can do -/

/-- Calls that neither close a descriptor nor take one out of the epoll set. -/
def Harmless (calls : List Call) : Prop := ∀ fd, .close fd ∉ calls ∧ .epollDel fd ∉ calls

/-- The ways in which handling a report can change the object. -/
inductive Handled (e : Epoll) (r : Report) (a : Answers) : Epoll → List Call → Prop
  | same {calls : List Call} (hcalls : Harmless calls) (hremove : e.dispatch r ≠ .removeClient)
      (hdata : e.dispatch r ≠ .clientData) : Handled e r a e calls
  /-- Only the flags that end the loop change. -/
  | flags {stdinClosed socketClosed : Bool} {calls : List Call} (hcalls : Harmless calls)
      (hends : e.dispatch r = .stdin ∨ e.dispatch r = .socketClosed ∨
        e.dispatch r = .socketData ∧ e.isListen = false) :
      Handled e r a
        { e with stdinClosed := stdinClosed, socketClosed := socketClosed } calls
  /-- The timer updates the counters of every connection. -/
  | ticked {calls : List Call} (hcalls : Harmless calls) (htimer : e.dispatch r = .timer) :
      Handled e r a { e with clients := e.clients.map fun _ st => st.tick a.now } calls
  | drained (hwakeup : e.dispatch r = .wakeup) : Handled e r a e.drain.1 e.drain.2
  | counted {chunk : Chunk bufSize} {calls : List Call} (hcalls : Harmless calls)
      (hread : a.read = .data chunk) (hdata : e.dispatch r = .clientData) :
      Handled e r a (e.countBytes r.fd chunk.1.length a.now) calls
  /-- The hang-up branch, which looks at no queue. -/
  | hungUp (hremove : e.dispatch r = .removeClient) :
      Handled e r a (e.removeClient r.fd).1 (e.removeClient r.fd).2
  /-- The data branch after a `recv` that returned no bytes. -/
  | emptied (hread : ∀ chunk, a.read ≠ .data chunk) (hdata : e.dispatch r = .clientData) :
      Handled e r a (e.removeClient r.fd).1 (e.removeClient r.fd).2

lemma handleStdin_ok {e e' : Epoll} {a : Answers} {calls : List Call}
    (h : e.handleStdin a = .ok (e', calls)) :
    (e' = e ∨ e' = { e with stdinClosed := true }) ∧ Harmless calls := by
  unfold handleStdin at h
  split at h
  · split_ifs at h
    · cases h
      exact ⟨Or.inl rfl, fun fd => by simp⟩
    · cases h
      exact ⟨Or.inl rfl, fun fd => by simp⟩
  · cases h
    exact ⟨Or.inr rfl, fun fd => by simp⟩
  · cases h
  · cases h

lemma handleSocketData_ok {e e' : Epoll} {a : Answers} {calls : List Call}
    (h : e.handleSocketData a = .ok (e', calls)) :
    (e' = e ∨ e' = { e with socketClosed := true }) ∧ Harmless calls := by
  unfold handleSocketData at h
  split at h
  · split_ifs at h
    cases h
    exact ⟨Or.inl rfl, fun fd => by simp⟩
  · cases h
    exact ⟨Or.inr rfl, fun fd => by simp⟩
  · cases h
  · cases h

/-- Handling a report does one of the things listed in `Handled`. -/
lemma handled_of_ok {e e' : Epoll} {r : Report} {a : Answers} {calls : List Call}
    (h : e.handleReport r a = .ok (e', calls)) : Handled e r a e' calls := by
  unfold handleReport at h
  split at h <;> rename_i hd
  · cases h
    exact .flags (fun fd => by simp) (Or.inr (Or.inl hd))
  · cases h
    exact .hungUp hd
  · cases h
    exact .drained hd
  · obtain ⟨rfl | rfl, hcalls⟩ := handleStdin_ok h
    · exact .same hcalls (by simp [hd]) (by simp [hd])
    · exact .flags hcalls (Or.inl hd)
  · unfold handleTimer at h
    split_ifs at h
    · cases h
      exact .ticked (fun fd => by simp) hd
    · cases h
      exact .same (fun fd => by simp) (by simp [hd]) (by simp [hd])
  · by_cases hlisten : e.isListen = true
    · rw [if_pos hlisten] at h
      cases h
      exact .same (fun fd => by simp) (by simp [hd]) (by simp [hd])
    · rw [if_neg hlisten] at h
      obtain ⟨rfl | rfl, hcalls⟩ := handleSocketData_ok h
      · exact .same hcalls (by simp [hd]) (by simp [hd])
      · exact .flags hcalls (Or.inr (Or.inr ⟨hd, by simpa using hlisten⟩))
  · unfold handleClientData at h
    split at h <;> rename_i hread
    · by_cases hwritten : a.written
      · rw [if_pos hwritten] at h
        cases h
        exact .counted (fun fd => by simp) hread hd
      · rw [if_neg hwritten] at h
        cases h
    all_goals
      cases h
      exact .emptied (by simp [hread]) hd
  · cases h
    exact .same (fun fd => by simp) (by simp [hd]) (by simp [hd])

end Epoll

end ClientServer.Mync
